import Mathlib.Data.List.Prime
import Mathlib.NumberTheory.LucasPrimality
import Mathlib.Tactic.NormNum.Prime
import SecondFactor.Proofs.Curve.Field

/-!
# The Two Primes of the Curve

The size of the coordinate field and the order of the group are primes. This is shown by Lucas's
test: a number is prime if some residue has the order of the number less one, and of that it is
enough to look at the prime factors of the number less one (`prime_of_factors`). The large ones
among these are shown to be prime in the same way.
-/

namespace SecondFactor.Curve

/-- Lucas's test, with the power computed by squaring and multiplying. -/
def PassesLucas (p a : Nat) [NeZero p] (factors : List Nat) : Prop :=
  let x := Fin.ofNat p a
  p < 2 ^ 256 ∧ factors.prod = p - 1 ∧ power x (p - 1) = oneLike x ∧
    ∀ q ∈ factors, power x ((p - 1) / q) ≠ oneLike x

instance (p a : Nat) [NeZero p] (factors : List Nat) : Decidable (PassesLucas p a factors) :=
  inferInstanceAs (Decidable (_ ∧ _ ∧ _ ∧ _))

/-- A number that passes Lucas's test with prime factors is prime. -/
theorem prime_of_factors {p : Nat} [NeZero p] (a : Nat) (factors : List Nat)
    (hfactors : ∀ q ∈ factors, q.Prime) (h : PassesLucas p a factors) : p.Prime := by
  obtain ⟨hbits, hprod, hone, hne⟩ := h
  have hpower : ∀ e ≤ p - 1, residue (Fin.ofNat p a) ^ e = 1 ↔
      power (Fin.ofNat p a) e = oneLike (Fin.ofNat p a) := by
    intro e he
    rw [← residue_power _ (by omega), ← residue_oneLike (Fin.ofNat p a),
      residue_injective.eq_iff]
  refine lucas_primality p (residue (Fin.ofNat p a)) ((hpower _ le_rfl).2 hone) ?_
  intro q hq hdvd
  -- A prime factor of the number less one is one of those that are listed.
  rw [← hprod] at hdvd
  obtain ⟨q', hmem, hdvd⟩ := (Prime.dvd_prod_iff hq.prime).1 hdvd
  obtain rfl := (Nat.prime_dvd_prime_iff_eq hq (hfactors q' hmem)).1 hdvd
  exact fun hone => hne q hmem ((hpower _ (Nat.div_le_self _ _)).1 hone)

/-- The size of the coordinate field is prime. -/
theorem prime_fieldSize : fieldSize.Prime := by
  -- Of the large factor of `fieldSize - 1`, which comes last, two factors are large in turn.
  have h₁ : Nat.Prime 255515944373312847190720520512484175977 :=
    prime_of_factors 3
      [2, 2, 2, 7, 7, 11, 1627, 2657, 4423, 41201, 96557, 7240687, 107590001]
      (by norm_num) (by decide +kernel)
  have h₂ : Nat.Prime 173378833005251801 :=
    prime_of_factors 6 [2, 2, 2, 5, 5, 2621, 24809, 13331831] (by norm_num) (by decide +kernel)
  have h₃ : Nat.Prime 22149492674086928081353 :=
    prime_of_factors 5 [2, 2, 2, 3, 5323, 173378833005251801]
      (by simp only [List.forall_mem_cons, h₂]; norm_num) (by decide +kernel)
  have h₄ : Nat.Prime 132896956044521568488119 :=
    prime_of_factors 6 [2, 3, 22149492674086928081353]
      (by simp only [List.forall_mem_cons, h₃]; norm_num) (by decide +kernel)
  have h₅ : Nat.Prime 205115282021455665897114700593932402728804164701536103180137503955397371 :=
    prime_of_factors 10
      [2, 3, 5, 29, 29, 31, 7723, 132896956044521568488119,
        255515944373312847190720520512484175977]
      (by simp only [List.forall_mem_cons, h₁, h₄]; norm_num) (by decide +kernel)
  exact prime_of_factors 3
    [2, 3, 7, 13441, 205115282021455665897114700593932402728804164701536103180137503955397371]
    (by simp only [List.forall_mem_cons, h₅]; norm_num) (by decide +kernel)

/-- The order of the group is prime. -/
theorem prime_order : order.Prime := by
  have h₁ : Nat.Prime 107361793816595537 :=
    prime_of_factors 3 [2, 2, 2, 2, 16699, 85831, 4681609] (by norm_num) (by decide +kernel)
  have h₂ : Nat.Prime 174723607534414371449 :=
    prime_of_factors 3 [2, 2, 2, 17, 59, 4051, 120233, 44706919] (by norm_num) (by decide +kernel)
  have h₃ : Nat.Prime 297159362677 :=
    prime_of_factors 2 [2, 2, 3, 3, 11, 461, 1627771] (by norm_num) (by decide +kernel)
  have h₄ : Nat.Prime 545358713 :=
    prime_of_factors 5 [2, 2, 2, 41, 59, 28181] (by norm_num) (by decide +kernel)
  have h₅ : Nat.Prime 29047611873442575647497758179 :=
    prime_of_factors 2 [2, 293, 305873, 545358713, 297159362677]
      (by simp only [List.forall_mem_cons, h₃, h₄]; norm_num) (by decide +kernel)
  have h₆ : Nat.Prime 341948486974166000522343609283189 :=
    prime_of_factors 2 [2, 2, 3, 3, 3, 109, 29047611873442575647497758179]
      (by simp only [List.forall_mem_cons, h₅]; norm_num) (by decide +kernel)
  exact prime_of_factors 7
    [2, 2, 2, 2, 2, 2, 3, 149, 631, 107361793816595537, 174723607534414371449,
      341948486974166000522343609283189]
    (by simp only [List.forall_mem_cons, h₁, h₂, h₆]; norm_num) (by decide +kernel)

instance : Fact fieldSize.Prime := ⟨prime_fieldSize⟩

instance : Fact order.Prime := ⟨prime_order⟩

end SecondFactor.Curve
