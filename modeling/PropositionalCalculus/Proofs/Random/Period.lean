import Mathlib.Dynamics.PeriodicPts.Defs
import Mathlib.NumberTheory.Multiplicity
import PropositionalCalculus.Random.Generator

/-!
# The period of the generator

A draw moves the state, and every further draw moves it by the multiplier times as much, modulo `2 ^ 64`. So a number
of draws moves it by a geometric sum of powers of the multiplier times the first move (`Generator.modEq_iterate`). The
first move is odd where the increment is, and as the multiplier leaves one modulo four, a power of two divides the
geometric sum exactly if it divides the number of draws (`two_pow_dvd_geom_sum_iff`). Hence a generator with an odd
increment is in its first state again after the multiples of `2 ^ 64` draws and after no others
(`Generator.isPeriodicPt_iff`), and meets every state before (`Generator.exists_iterate_state_eq`).

All seeded generators have the same odd increment, so they go round one cycle, each from its own state on
(`Generator.seeded_full_period`).
-/

set_option autoImplicit false

namespace PropositionalCalculus

open Finset Function

/-- **A power of two divides a geometric sum exactly if it divides the number of its terms**, where the ratio leaves one
modulo four. -/
theorem two_pow_dvd_geom_sum_iff {a : Nat} (ha : a % 4 = 1) (hne : a ≠ 1) (n k : Nat) :
    2 ^ n ∣ ∑ i ∈ range k, a ^ i ↔ 2 ^ n ∣ k := by
  have hfour : (4 : Int) ∣ a - 1 := by omega
  have hodd : ¬ (2 : Int) ∣ a := by omega
  have hfinite : FiniteMultiplicity (2 : Int) (a - 1) := Int.finiteMultiplicity_iff.2 ⟨by decide, by omega⟩
  -- Times `a - 1` the sum is `a ^ k - 1`, in which two occurs as often as in `a - 1` and `k` together.
  have hsum : emultiplicity 2 (∑ i ∈ range k, (a : Int) ^ i) = emultiplicity (2 : Int) k := by
    apply ENat.add_right_injective_of_ne_top (finiteMultiplicity_iff_emultiplicity_ne_top.1 hfinite)
    calc emultiplicity 2 ((a : Int) - 1) + emultiplicity 2 (∑ i ∈ range k, (a : Int) ^ i)
        = emultiplicity 2 ((a : Int) ^ k - 1 ^ k) := by
          rw [← emultiplicity_mul Int.prime_two, mul_geom_sum, one_pow]
      _ = emultiplicity 2 ((a : Int) - 1) + emultiplicity (2 : Int) k := Int.two_pow_sub_pow' k hfour hodd
  have hcast : ((2 : Int) ^ n ∣ ∑ i ∈ range k, (a : Int) ^ i) ↔ (2 : Int) ^ n ∣ k := by
    rw [pow_dvd_iff_le_emultiplicity, hsum, ← pow_dvd_iff_le_emultiplicity]
  exact_mod_cast hcast

namespace Generator

variable {g g' : Generator}

/-! ## The state after some draws -/

@[simp] theorem toNat_multiplier : multiplier.toNat = 6364136223846793005 := rfl

@[simp] theorem increment_advance (g : Generator) : g.advance.increment = g.increment := by
  rw [advance]

@[simp] theorem increment_iterate (g : Generator) (k : Nat) : (advance^[k] g).increment = g.increment := by
  induction k with
  | zero => rfl
  | succ k ih => rw [iterate_succ_apply', increment_advance, ih]

theorem eq_of_state_eq (hstate : g.state = g'.state) (hincrement : g.increment = g'.increment) : g = g' := by
  cases g
  cases g'
  congr

/-- States are numbers below `2 ^ 64`. -/
theorem state_eq_of_modEq {x y : UInt64} (h : x.toNat ≡ y.toNat [MOD 2 ^ 64]) : x = y :=
  UInt64.toNat_inj.1 (h.eq_of_lt_of_lt x.toNat_lt_size y.toNat_lt_size)

theorem modEq_advance (g : Generator) :
    g.advance.state.toNat ≡ g.state.toNat * multiplier.toNat + g.increment.toNat [MOD 2 ^ 64] := by
  rw [advance, UInt64.toNat_add, UInt64.toNat_mul]
  exact (Nat.mod_modEq _ _).trans ((Nat.mod_modEq _ _).add_right _)

/-- How far the first draw moves the state. -/
def move (g : Generator) : Nat :=
  g.state.toNat * (multiplier.toNat - 1) + g.increment.toNat

theorem state_add_move (g : Generator) :
    g.state.toNat + g.move = g.state.toNat * multiplier.toNat + g.increment.toNat := by
  rw [move, toNat_multiplier]
  omega

theorem odd_move (h : Odd g.increment.toNat) : Odd g.move := by
  have heven : Even (multiplier.toNat - 1) := by
    rw [toNat_multiplier]
    decide
  exact (heven.mul_left _).add_odd h

/-- **Draws move the state by a geometric sum of moves.** -/
theorem modEq_iterate (g : Generator) (k : Nat) :
    (advance^[k] g).state.toNat ≡
      g.state.toNat + (∑ i ∈ range k, multiplier.toNat ^ i) * g.move [MOD 2 ^ 64] := by
  induction k with
  | zero => rw [iterate_zero_apply, range_zero, sum_empty, zero_mul, add_zero]
  | succ k ih =>
      have hstep := modEq_advance (advance^[k] g)
      rw [increment_iterate] at hstep
      have hsum :
          (g.state.toNat + (∑ i ∈ range k, multiplier.toNat ^ i) * g.move) * multiplier.toNat + g.increment.toNat =
            g.state.toNat + (∑ i ∈ range (k + 1), multiplier.toNat ^ i) * g.move := by
        calc (g.state.toNat + (∑ i ∈ range k, multiplier.toNat ^ i) * g.move) * multiplier.toNat + g.increment.toNat
            = (g.state.toNat * multiplier.toNat + g.increment.toNat) +
                multiplier.toNat * (∑ i ∈ range k, multiplier.toNat ^ i) * g.move := by ring
          _ = g.state.toNat + (multiplier.toNat * (∑ i ∈ range k, multiplier.toNat ^ i) + 1) * g.move := by
              rw [← state_add_move]
              ring
          _ = g.state.toNat + (∑ i ∈ range (k + 1), multiplier.toNat ^ i) * g.move := by rw [geom_sum_succ]
      rw [iterate_succ_apply', ← hsum]
      exact hstep.trans ((ih.mul_right _).add_right _)

/-! ## The period -/

/-- **With an odd increment a generator comes back after the multiples of `2 ^ 64` draws, and after no others.** -/
theorem isPeriodicPt_iff (h : Odd g.increment.toNat) (k : Nat) : IsPeriodicPt advance k g ↔ 2 ^ 64 ∣ k := by
  have hmove : (2 ^ 64).Coprime g.move := (odd_move h).coprime_two_left.pow_left 64
  have hmultiplier : multiplier.toNat % 4 = 1 := by rw [toNat_multiplier]
  have hne : multiplier.toNat ≠ 1 := by
    rw [toNat_multiplier]
    decide
  calc IsPeriodicPt advance k g
      ↔ (advance^[k] g).state.toNat ≡ g.state.toNat [MOD 2 ^ 64] := by
        constructor
        · intro hback
          rw [hback.eq]
        · intro hmod
          exact eq_of_state_eq (state_eq_of_modEq hmod) (increment_iterate g k)
    _ ↔ g.state.toNat + (∑ i ∈ range k, multiplier.toNat ^ i) * g.move ≡ g.state.toNat [MOD 2 ^ 64] :=
        ⟨(modEq_iterate g k).symm.trans, (modEq_iterate g k).trans⟩
    _ ↔ 2 ^ 64 ∣ (∑ i ∈ range k, multiplier.toNat ^ i) * g.move := Nat.add_modEq_left_iff
    _ ↔ 2 ^ 64 ∣ ∑ i ∈ range k, multiplier.toNat ^ i := hmove.dvd_mul_right
    _ ↔ 2 ^ 64 ∣ k := two_pow_dvd_geom_sum_iff hmultiplier hne 64 k

theorem minimalPeriod_advance (h : Odd g.increment.toNat) : minimalPeriod advance g = 2 ^ 64 := by
  apply Nat.dvd_antisymm
  · exact ((isPeriodicPt_iff h _).2 dvd_rfl).minimalPeriod_dvd
  · exact (isPeriodicPt_iff h _).1 (isPeriodicPt_minimalPeriod advance g)

/-- No state is met twice within a period. -/
theorem iterate_state_inj (h : Odd g.increment.toNat) {j k : Nat} (hj : j < 2 ^ 64) (hk : k < 2 ^ 64)
    (hstate : (advance^[j] g).state = (advance^[k] g).state) : j = k := by
  rw [← minimalPeriod_advance h] at hj hk
  apply (iterate_eq_iterate_iff_of_lt_minimalPeriod hj hk).1
  apply eq_of_state_eq hstate
  rw [increment_iterate, increment_iterate]

/-- **Every state is met within a period**, for there are no more states than draws. -/
theorem exists_iterate_state_eq (h : Odd g.increment.toNat) (x : UInt64) :
    ∃ k < 2 ^ 64, (advance^[k] g).state = x := by
  have hinjective : Injective fun k : Fin UInt64.size => (advance^[k.val] g).state.toFin := by
    intro j k hjk
    exact Fin.ext (iterate_state_inj h j.isLt k.isLt (UInt64.toFin_inj.1 hjk))
  obtain ⟨k, hk⟩ := Finite.injective_iff_surjective.1 hinjective x.toFin
  exact ⟨k.val, k.isLt, UInt64.toFin_inj.1 hk⟩

/-- A generator with the same increment is met on the way. -/
theorem exists_iterate_eq (h : Odd g.increment.toNat) (hincrement : g.increment = g'.increment) :
    ∃ k < 2 ^ 64, advance^[k] g = g' := by
  obtain ⟨k, hk, hstate⟩ := exists_iterate_state_eq h g'.state
  refine ⟨k, hk, eq_of_state_eq hstate ?_⟩
  rw [increment_iterate, hincrement]

/-- Generators that come together after the same number of draws have been together all the time. -/
theorem eq_of_iterate_eq (h : Odd g.increment.toNat) (hincrement : g.increment = g'.increment) {k : Nat}
    (hstate : (advance^[k] g').state = (advance^[k] g).state) : g' = g := by
  obtain ⟨turn, -, rfl⟩ := exists_iterate_eq h hincrement
  -- The way from the one to the other leads from a state back to that state.
  have hodd : Odd (advance^[k] g).increment.toNat := by rwa [increment_iterate]
  have hback : IsPeriodicPt advance turn (advance^[k] g) := by
    apply eq_of_state_eq
    · rw [← hstate, ← iterate_add_apply, ← iterate_add_apply, add_comm]
    · rw [increment_iterate]
  exact (isPeriodicPt_iff h turn).2 ((isPeriodicPt_iff hodd turn).1 hback)

/-! ## Seeds -/

/-- The bytes of a number are those that it was put together from. -/
theorem lowBytes_ofLowBytes (bytes : List UInt8) : lowBytes bytes.length (ofLowBytes bytes) = bytes := by
  induction bytes with
  | nil => rfl
  | cons b bytes ih =>
      have hb : b.toNat < 256 := b.toNat_lt_size
      have hdiv : (b.toNat + 256 * ofLowBytes bytes) / 256 = ofLowBytes bytes := by omega
      have hmod : UInt8.ofNat (b.toNat + 256 * ofLowBytes bytes) = b := by
        apply UInt8.toNat_inj.1
        rw [UInt8.toNat_ofNat']
        omega
      rw [List.length_cons, ofLowBytes, lowBytes, hdiv, hmod, ih]

theorem ofLowBytes_lt (bytes : List UInt8) : ofLowBytes bytes < 256 ^ bytes.length := by
  induction bytes with
  | nil => exact Nat.one_pos
  | cons b bytes ih =>
      have hb : b.toNat < 256 := b.toNat_lt_size
      rw [List.length_cons, ofLowBytes, Nat.pow_succ]
      omega

/-- Seeds are told apart by the states that they give. -/
theorem seed_eq_of_state_eq {seed other : Vector UInt8 8}
    (h : (ofSeedBytes seed).state = (ofSeedBytes other).state) : seed = other := by
  have hword : UInt64.ofNat (ofLowBytes seed.toList) = UInt64.ofNat (ofLowBytes other.toList) :=
    UInt64.add_left_inj _ |>.1 h
  have hlt : ∀ seed : Vector UInt8 8, ofLowBytes seed.toList < 2 ^ 64 := by
    intro seed
    have hbytes := ofLowBytes_lt seed.toList
    rwa [Vector.length_toList] at hbytes
  have hnumber : ofLowBytes seed.toList = ofLowBytes other.toList := by
    have htoNat := congrArg UInt64.toNat hword
    rwa [UInt64.toNat_ofNat_of_lt' (hlt seed), UInt64.toNat_ofNat_of_lt' (hlt other)] at htoNat
  apply Vector.toList_inj.1
  rw [← lowBytes_ofLowBytes seed.toList, ← lowBytes_ofLowBytes other.toList, hnumber, Vector.length_toList,
    Vector.length_toList]

theorem odd_increment_ofSeedBytes (seed : Vector UInt8 8) : Odd (ofSeedBytes seed).increment.toNat := by
  have hincrement : (ofSeedBytes seed).increment.toNat = 11400714819323198485 := rfl
  rw [hincrement]
  decide

/-! ## Draws -/

/-- The generator after some 32-bit draws. -/
def drawn (g : Generator) (count : Nat) : Generator :=
  (fun g => g.next32.2)^[count] g

/-- What a 32-bit draw gives after some others. -/
def word (g : Generator) (count : Nat) : UInt32 :=
  (g.drawn count).next32.1

theorem drawn_eq_iterate (g : Generator) (count : Nat) : g.drawn count = advance^[count] g := rfl

/-- **Generators with the same odd increment go round one cycle.** -/
theorem exists_turn (h : Odd g.increment.toNat) (hincrement : g.increment = g'.increment) :
    ∃ turn < 2 ^ 64, ∀ k, g'.drawn k = g.drawn ((turn + k) % 2 ^ 64) := by
  obtain ⟨turn, hturn, rfl⟩ := exists_iterate_eq h hincrement
  have hback : IsPeriodicPt advance (2 ^ 64) g := (isPeriodicPt_iff h _).2 dvd_rfl
  refine ⟨turn, hturn, ?_⟩
  intro k
  rw [drawn_eq_iterate, drawn_eq_iterate, hback.iterate_mod_apply, add_comm, iterate_add_apply]

/-- **Seeded generators have the full period.** The state that a seed gives comes back after the multiples of `2 ^ 64`
draws and after no others, and within `2 ^ 64` draws every state is met once. Two seeds give different states after any
equal number of draws. All seeds give the same `2 ^ 64` words round and round, each from another place on. -/
theorem seeded_full_period (seed : Vector UInt8 8) :
    (∀ k, ((ofSeedBytes seed).drawn k).state = (ofSeedBytes seed).state ↔ 2 ^ 64 ∣ k) ∧
      (∀ x, ∃! k, k < 2 ^ 64 ∧ ((ofSeedBytes seed).drawn k).state = x) ∧
      (∀ other, other ≠ seed → ∀ k, ((ofSeedBytes other).drawn k).state ≠ ((ofSeedBytes seed).drawn k).state) ∧
      ∀ other, ∃ turn < 2 ^ 64, ∀ k,
        (ofSeedBytes other).drawn k = (ofSeedBytes seed).drawn ((turn + k) % 2 ^ 64) ∧
          (ofSeedBytes other).word k = (ofSeedBytes seed).word ((turn + k) % 2 ^ 64) := by
  have hodd := odd_increment_ofSeedBytes seed
  refine ⟨?_, ?_, ?_, ?_⟩
  · intro k
    rw [← isPeriodicPt_iff hodd]
    constructor
    · intro hstate
      exact eq_of_state_eq hstate (increment_iterate _ k)
    · intro hback
      exact congrArg state hback
  · intro x
    obtain ⟨k, hk, hstate⟩ := exists_iterate_state_eq hodd x
    refine ⟨k, ⟨hk, hstate⟩, ?_⟩
    rintro j ⟨hj, hstate'⟩
    exact iterate_state_inj hodd hj hk (hstate'.trans hstate.symm)
  · intro other hother k hstate
    apply hother
    have hsame : ofSeedBytes other = ofSeedBytes seed := eq_of_iterate_eq hodd rfl hstate
    exact seed_eq_of_state_eq (by rw [hsame])
  · intro other
    have hincrement : (ofSeedBytes seed).increment = (ofSeedBytes other).increment := rfl
    obtain ⟨turn, hturn, hdrawn⟩ := exists_turn hodd hincrement
    refine ⟨turn, hturn, ?_⟩
    intro k
    exact ⟨hdrawn k, by rw [word, word, hdrawn k]⟩

end Generator

end PropositionalCalculus
