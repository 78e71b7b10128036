import Mathlib.Data.List.Basic
/-!
Letters of either case.  The letters of ASCII come in pairs; a text in which only one case occurs is
its own form in that case.
-/

namespace HardwareSigner.Text

theorem isUpper_iff {c : Char} : c.isUpper = true ↔ 65 ≤ c.toNat ∧ c.toNat ≤ 90 :=
  decide_eq_true_iff

theorem isLower_iff {c : Char} : c.isLower = true ↔ 97 ≤ c.toNat ∧ c.toNat ≤ 122 :=
  Bool.and_eq_true_iff.trans (and_congr decide_eq_true_iff decide_eq_true_iff)

theorem not_isLower_of_isUpper {c : Char} (upper : c.isUpper = true) : ¬ c.isLower = true := by
  have range := isUpper_iff.mp upper
  rw [isLower_iff]
  omega

theorem toNat_toLower (c : Char) :
    c.toLower.toNat = if c.isUpper then c.toNat + 32 else c.toNat := by
  unfold Char.toLower
  split
  · rename_i range
    have low : 65 ≤ c.val.toNat := range.1
    have high : c.val.toNat ≤ 90 := range.2
    have distance : ('a'.val - 'A'.val).toNat = 32 := rfl
    rw [if_pos (isUpper_iff.mpr ⟨low, high⟩), Char.toNat, UInt32.toNat_add, distance]
    exact Nat.mod_eq_of_lt (by omega)
  · rename_i other
    have none : ¬ c.isUpper = true := fun upper => other (isUpper_iff.mp upper)
    rw [if_neg none]

theorem toNat_toUpper (c : Char) :
    c.toUpper.toNat = if c.isLower then c.toNat - 32 else c.toNat := by
  unfold Char.toUpper
  split
  · rename_i range
    have low : 97 ≤ c.val.toNat := range.1
    have high : c.val.toNat ≤ 122 := range.2
    have distance : ('A'.val - 'a'.val).toNat = 2 ^ 32 - 32 := rfl
    rw [if_pos (isLower_iff.mpr ⟨low, high⟩), Char.toNat, UInt32.toNat_add, distance]
    show (c.val.toNat + (2 ^ 32 - 32)) % 2 ^ 32 = c.val.toNat - 32
    omega
  · rename_i other
    have none : ¬ c.isLower = true := fun lower => other (isLower_iff.mp lower)
    rw [if_neg none]

theorem toLower_eq_self_iff {c : Char} : c.toLower = c ↔ c.isUpper = false := by
  rw [← Char.toNat_inj, toNat_toLower]
  split
  · rename_i upper
    simp only [upper, Bool.true_eq_false, iff_false]
    omega
  · rename_i other
    exact iff_of_true rfl (Bool.eq_false_iff.mpr other)

theorem toUpper_eq_self_iff {c : Char} : c.toUpper = c ↔ c.isLower = false := by
  rw [← Char.toNat_inj, toNat_toUpper]
  split
  · rename_i lower
    have range := isLower_iff.mp lower
    simp only [lower, Bool.true_eq_false, iff_false]
    omega
  · rename_i other
    exact iff_of_true rfl (Bool.eq_false_iff.mpr other)

theorem not_isUpper_toLower (c : Char) : c.toLower.isUpper = false := by
  rw [Bool.eq_false_iff, ne_eq, isUpper_iff, toNat_toLower]
  split
  · rename_i upper
    have range := isUpper_iff.mp upper
    omega
  · rename_i other
    exact mt isUpper_iff.mpr other

theorem not_isLower_toUpper (c : Char) : c.toUpper.isLower = false := by
  rw [Bool.eq_false_iff, ne_eq, isLower_iff, toNat_toUpper]
  split
  · rename_i lower
    have range := isLower_iff.mp lower
    omega
  · rename_i other
    exact mt isLower_iff.mpr other

theorem toLower_toLower (c : Char) : c.toLower.toLower = c.toLower :=
  toLower_eq_self_iff.mpr (not_isUpper_toLower c)

theorem toUpper_toUpper (c : Char) : c.toUpper.toUpper = c.toUpper :=
  toUpper_eq_self_iff.mpr (not_isLower_toUpper c)

/-- Both characters of a pair have the same small one. -/
theorem toLower_toUpper (c : Char) : c.toUpper.toLower = c.toLower := by
  by_cases lower : c.isLower = true
  · have range := isLower_iff.mp lower
    have other : ¬ c.isUpper = true := fun upper => not_isLower_of_isUpper upper lower
    have upper : c.toUpper.isUpper = true := by
      rw [isUpper_iff, toNat_toUpper, if_pos lower]
      omega
    rw [← Char.toNat_inj, toNat_toLower, if_pos upper, toNat_toUpper, if_pos lower, toNat_toLower,
      if_neg other]
    omega
  · rw [toUpper_eq_self_iff.mpr (Bool.eq_false_iff.mpr lower)]

/-- Both characters of a pair have the same capital. -/
theorem toUpper_toLower (c : Char) : c.toLower.toUpper = c.toUpper := by
  by_cases upper : c.isUpper = true
  · have range := isUpper_iff.mp upper
    have other := not_isLower_of_isUpper upper
    have lower : c.toLower.isLower = true := by
      rw [isLower_iff, toNat_toLower, if_pos upper]
      omega
    rw [← Char.toNat_inj, toNat_toUpper, if_pos lower, toNat_toLower, if_pos upper, toNat_toUpper,
      if_neg other]
    omega
  · rw [toLower_eq_self_iff.mpr (Bool.eq_false_iff.mpr upper)]

/-- The characters with a given small form are that form and its capital. -/
theorem toLower_eq_iff {c small : Char} (plain : small.isUpper = false) :
    c.toLower = small ↔ c = small ∨ c = small.toUpper := by
  constructor
  · rintro rfl
    by_cases upper : c.isUpper = true
    · have other := Bool.eq_false_iff.mpr (not_isLower_of_isUpper upper)
      rw [toUpper_toLower]
      exact .inr (toUpper_eq_self_iff.mpr other).symm
    · exact .inl (toLower_eq_self_iff.mpr (Bool.eq_false_iff.mpr upper)).symm
  · rintro (rfl | rfl)
    · exact toLower_eq_self_iff.mpr plain
    · rw [toLower_toUpper]
      exact toLower_eq_self_iff.mpr plain

theorem map_eq_self_iff {f : Char → Char} {cs : List Char} :
    cs.map f = cs ↔ ∀ c ∈ cs, f c = c := by
  have same := List.map_eq_map_iff (f := f) (g := id) (l := cs)
  rw [List.map_id] at same
  exact same

theorem map_toLower_eq_self_iff {cs : List Char} :
    cs.map Char.toLower = cs ↔ cs.any Char.isUpper = false := by
  simp only [map_eq_self_iff, toLower_eq_self_iff, List.any_eq_false, Bool.not_eq_true]

theorem map_toUpper_eq_self_iff {cs : List Char} :
    cs.map Char.toUpper = cs ↔ cs.any Char.isLower = false := by
  simp only [map_eq_self_iff, toUpper_eq_self_iff, List.any_eq_false, Bool.not_eq_true]

theorem map_toLower_toLower (cs : List Char) :
    (cs.map Char.toLower).map Char.toLower = cs.map Char.toLower := by
  rw [List.map_map]
  exact List.map_congr_left fun c _ => toLower_toLower c

theorem map_toLower_toUpper (cs : List Char) :
    (cs.map Char.toUpper).map Char.toLower = cs.map Char.toLower := by
  rw [List.map_map]
  exact List.map_congr_left fun c _ => toLower_toUpper c

theorem map_toUpper_toLower (cs : List Char) :
    (cs.map Char.toLower).map Char.toUpper = cs.map Char.toUpper := by
  rw [List.map_map]
  exact List.map_congr_left fun c _ => toUpper_toLower c

theorem map_toUpper_toUpper (cs : List Char) :
    (cs.map Char.toUpper).map Char.toUpper = cs.map Char.toUpper := by
  rw [List.map_map]
  exact List.map_congr_left fun c _ => toUpper_toUpper c

theorem toList_toLower (s : String) : s.toLower.toList = s.toList.map Char.toLower :=
  String.toList_map

theorem toList_toUpper (s : String) : s.toUpper.toList = s.toList.map Char.toUpper :=
  String.toList_map

theorem lowered_toLower (s : String) : s.toLower.toLower = s.toLower := by
  rw [← String.toList_inj, toList_toLower, toList_toLower, map_toLower_toLower]

theorem raised_toUpper (s : String) : s.toUpper.toUpper = s.toUpper := by
  rw [← String.toList_inj, toList_toUpper, toList_toUpper, map_toUpper_toUpper]

theorem lowered_toUpper (s : String) : s.toUpper.toLower = s.toLower := by
  rw [← String.toList_inj, toList_toLower, toList_toUpper, toList_toLower, map_toLower_toUpper]

end HardwareSigner.Text
