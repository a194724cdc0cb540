import Mathlib.Data.List.Nodup
import Mathlib.Data.Nat.ModEq

/-!
# Walks around a ring

A walk around a ring of `n` places takes `stride` places in each step. Its first
`n` places are different exactly when the stride is coprime to `n`.
-/

namespace HederaSdk.Library

/-- The place after the number of steps. -/
def place (n stride start : Nat) (steps : Nat) : Nat := (start + steps * stride) % n

variable {n stride start : Nat}

@[simp] theorem place_zero (h : start < n) : place n stride start 0 = start := by
  rw [place, Nat.zero_mul, Nat.add_zero, Nat.mod_eq_of_lt h]

theorem place_lt (positive : 0 < n) (steps : Nat) : place n stride start steps < n :=
  Nat.mod_lt _ positive

/-- The walk goes on from where it is. -/
theorem place_succ (steps : Nat) :
    place n stride start (steps + 1) = place n stride ((start + stride) % n) steps := by
  rw [place, place, Nat.mod_add_mod, Nat.succ_mul]
  congr 1
  omega

theorem place_eq_iff (coprime : stride.Coprime n) {i j : Nat} :
    place n stride start i = place n stride start j ↔ i ≡ j [MOD n] := by
  constructor
  · intro same
    have shifted : i * stride ≡ j * stride [MOD n] := Nat.ModEq.add_left_cancel' start same
    exact Nat.ModEq.cancel_right_of_coprime ((Nat.gcd_comm n stride).trans coprime) shifted
  · exact fun same => (same.mul_right stride).add_left start

/-- With a common divisor the walk is back at its start too early. -/
theorem place_period (stride start : Nat) (n : Nat) :
    place n stride start (n / stride.gcd n) = place n stride start 0 := by
  have multiple : n ∣ n / stride.gcd n * stride := by
    obtain ⟨c, same⟩ := Nat.gcd_dvd_left stride n
    refine ⟨c, ?_⟩
    calc n / stride.gcd n * stride = n / stride.gcd n * (stride.gcd n * c) := by rw [← same]
      _ = n / stride.gcd n * stride.gcd n * c := (Nat.mul_assoc ..).symm
      _ = n * c := by rw [Nat.div_mul_cancel (Nat.gcd_dvd_right stride n)]
  rw [place, place, Nat.zero_mul]
  exact (Nat.modEq_zero_iff_dvd.mpr multiple).add_left start

variable (start) in
theorem nodup_places_iff (positive : 0 < n) :
    ((List.range n).map (place n stride start)).Nodup ↔ stride.Coprime n := by
  constructor
  · intro nodup
    by_contra common
    have several : 1 < stride.gcd n := by
      have := Nat.gcd_pos_of_pos_right stride positive
      rw [Nat.Coprime] at common
      omega
    have early : n / stride.gcd n < n := Nat.div_lt_self positive several
    have later : 0 < n / stride.gcd n :=
      Nat.div_pos (Nat.le_of_dvd positive (Nat.gcd_dvd_right ..)) (by omega)
    have injective := List.inj_on_of_nodup_map nodup (List.mem_range.mpr early)
      (List.mem_range.mpr positive) (place_period stride start n)
    omega
  · intro coprime
    refine List.Nodup.map_on ?_ List.nodup_range
    intro i inRange j inRange' same
    have congruent := (place_eq_iff coprime).mp same
    rwa [Nat.ModEq, Nat.mod_eq_of_lt (List.mem_range.mp inRange),
      Nat.mod_eq_of_lt (List.mem_range.mp inRange')] at congruent

end HederaSdk.Library
