/- FffChain/Authority/Satisfaction
   source: the spec, "Authority" and "check_authority"
   digest: What it means for a key set to satisfy an authority: the least
   predicate closed under the weighted threshold rule, and its depth-bounded
   approximations. -/

import FffChain.Authority.Types

set_option autoImplicit false
set_option relaxedAutoImplicit false

namespace FffChain.Authority.Satisfaction

open FffChain.Authority.Types

/-- The sum of the weights of the entries whose id or key passes `p`. -/
def weight (p : Nat → Bool) (entries : List (Nat × Nat)) : Nat :=
  ((entries.filter (fun e => p e.1)).map Prod.snd).sum

@[simp] theorem weight_nil (p : Nat → Bool) : weight p [] = 0 := rfl

@[simp] theorem weight_cons (p : Nat → Bool) (x w : Nat) (entries : List (Nat × Nat)) :
    weight p ((x, w) :: entries) = (if p x then w else 0) + weight p entries := by
  unfold weight; cases h : p x <;> simp [List.filter_cons, h]

theorem weight_mono {p q : Nat → Bool} {entries : List (Nat × Nat)}
    (pq : ∀ x w, (x, w) ∈ entries → p x = true → q x = true) : weight p entries ≤ weight q entries := by
  induction entries with
  | nil => simp
  | cons e entries ih =>
    obtain ⟨x, w⟩ := e
    have head := pq x w (List.mem_cons_self _ _)
    have tail := ih (fun y v h => pq y v (List.mem_cons_of_mem _ h))
    simp only [weight_cons]
    split_ifs with hp hq
    · omega
    · exact absurd (head hp) hq
    · omega
    · omega

theorem weight_le_sum (p : Nat → Bool) (entries : List (Nat × Nat)) :
    weight p entries ≤ (entries.map Prod.snd).sum := by
  induction entries with
  | nil => simp
  | cons e entries ih =>
    obtain ⟨x, w⟩ := e
    simp only [weight_cons, List.map_cons, List.sum_cons]
    split_ifs <;> omega

section
variable (signed : PublicKey → Bool) (preApproved : AccountId → Bool)
  (getActive : AccountId → Option Authority)

/-- `satisfiedWithin n X`: the signed keys and the accounts pre-approved or whose active authority is satisfied
within `n - 1` reach the threshold of `X`; at `0` only pre-approved accounts count. -/
def satisfiedWithin : Nat → Authority → Bool
  | 0, X => X.weightThreshold ≤ weight signed X.keyAuths + weight preApproved X.accountAuths
  | n + 1, X => X.weightThreshold ≤ weight signed X.keyAuths +
      weight (fun a => preApproved a || (getActive a).any (satisfiedWithin n)) X.accountAuths

/-- The key set satisfies `X`: within some depth. -/
def Sat (X : Authority) : Prop := ∃ n, satisfiedWithin signed preApproved getActive n X = true

theorem satisfiedWithin_succ {n : Nat} {X : Authority}
    (sat : satisfiedWithin signed preApproved getActive n X = true) :
    satisfiedWithin signed preApproved getActive (n + 1) X = true := by
  induction n generalizing X with
  | zero =>
    simp only [satisfiedWithin, decide_eq_true_eq] at sat ⊢
    exact le_trans sat (Nat.add_le_add_left (weight_mono fun a _ _ h => by simp [h]) _)
  | succ n ih =>
    simp only [satisfiedWithin, decide_eq_true_eq] at sat ⊢
    refine le_trans sat (Nat.add_le_add_left (weight_mono fun a _ _ h => ?_) _)
    simp only [Bool.or_eq_true] at h ⊢
    rcases h with h | h
    · exact Or.inl h
    · cases hY : getActive a <;> simp only [hY, Option.any_none, Option.any_some,
        Bool.false_eq_true] at h ⊢
      exact Or.inr (ih h)

theorem satisfiedWithin_mono {n m : Nat} (le : n ≤ m) {X : Authority}
    (sat : satisfiedWithin signed preApproved getActive n X = true) :
    satisfiedWithin signed preApproved getActive m X = true := by
  induction m, le using Nat.le_induction with
  | base => exact sat
  | succ m _ ih => exact satisfiedWithin_succ signed preApproved getActive ih

/-- An account counts toward the threshold: pre-approved, or its active
authority is satisfied. -/
def Counts (a : AccountId) : Prop :=
  preApproved a = true ∨ ∃ Y, getActive a = some Y ∧ Sat signed preApproved getActive Y

private theorem counts_within (accounts : List (AccountId × Nat)) (good : AccountId → Bool)
    (counts : ∀ a w, (a, w) ∈ accounts → good a = true → Counts signed preApproved getActive a) :
    ∃ n, ∀ a w, (a, w) ∈ accounts → good a = true →
      (preApproved a || (getActive a).any (satisfiedWithin signed preApproved getActive n)) = true := by
  induction accounts with
  | nil => exact ⟨0, by simp⟩
  | cons e accounts ih =>
    obtain ⟨a, w⟩ := e
    obtain ⟨n, hn⟩ := ih (fun b v h => counts b v (List.mem_cons_of_mem _ h))
    by_cases ga : good a = true
    · rcases counts a w (List.mem_cons_self _ _) ga with pre | ⟨Y, hY, m, sat⟩
      · refine ⟨n, fun b v h gb => ?_⟩
        rcases List.mem_cons.mp h with h | h
        · cases h; simp [pre]
        · exact hn b v h gb
      · refine ⟨max n m, fun b v h gb => ?_⟩
        rcases List.mem_cons.mp h with h | h
        · cases h
          simp only [hY, Option.any_some, Bool.or_eq_true]
          exact Or.inr (satisfiedWithin_mono signed preApproved getActive (le_max_right n m) sat)
        · have := hn b v h gb
          simp only [Bool.or_eq_true] at this ⊢
          refine this.imp id fun any => ?_
          cases hb : getActive b <;> simp only [hb, Option.any_none, Option.any_some,
            Bool.false_eq_true] at any ⊢
          exact satisfiedWithin_mono signed preApproved getActive (le_max_left n m) any
    · refine ⟨n, fun b v h gb => ?_⟩
      rcases List.mem_cons.mp h with h | h
      · cases h; exact absurd gb ga
      · exact hn b v h gb

theorem sat_of_weight (X : Authority) (good : AccountId → Bool)
    (counts : ∀ a w, (a, w) ∈ X.accountAuths → good a = true →
      Counts signed preApproved getActive a)
    (reach : X.weightThreshold ≤ weight signed X.keyAuths + weight good X.accountAuths) :
    Sat signed preApproved getActive X := by
  obtain ⟨n, hn⟩ := counts_within signed preApproved getActive X.accountAuths good counts
  refine ⟨n + 1, ?_⟩
  simp only [satisfiedWithin, decide_eq_true_eq]
  exact le_trans reach (Nat.add_le_add_left (weight_mono hn) _)

open Classical in
/-- `Sat` is a fixed point of the threshold rule. -/
theorem sat_iff (X : Authority) :
    Sat signed preApproved getActive X ↔ X.weightThreshold ≤ weight signed X.keyAuths +
      weight (fun a => decide (Counts signed preApproved getActive a)) X.accountAuths := by
  constructor
  · rintro ⟨n, sat⟩
    cases n with
    | zero =>
      simp only [satisfiedWithin, decide_eq_true_eq] at sat
      exact le_trans sat (Nat.add_le_add_left (weight_mono fun a _ _ h => by
        simp [Counts, h]) _)
    | succ n =>
      simp only [satisfiedWithin, decide_eq_true_eq] at sat
      refine le_trans sat (Nat.add_le_add_left (weight_mono fun a _ _ h => ?_) _)
      simp only [Bool.or_eq_true, decide_eq_true_eq] at h ⊢
      rcases h with h | h
      · exact Or.inl h
      · cases hY : getActive a <;> simp only [hY, Option.any_none, Option.any_some,
          Bool.false_eq_true] at h
        exact Or.inr ⟨_, hY, n, h⟩
  · intro reach
    exact sat_of_weight signed preApproved getActive X _ (fun a _ _ h => by simpa using h) reach

open Classical in
/-- `Sat` is the least predicate closed under the threshold rule. -/
theorem sat_least (Q : Authority → Prop)
    (closed : ∀ X, X.weightThreshold ≤ weight signed X.keyAuths + weight (fun a =>
      decide (preApproved a = true ∨ ∃ Y, getActive a = some Y ∧ Q Y)) X.accountAuths → Q X)
    (X : Authority) (sat : Sat signed preApproved getActive X) : Q X := by
  obtain ⟨n, sat⟩ := sat
  induction n generalizing X with
  | zero =>
    simp only [satisfiedWithin, decide_eq_true_eq] at sat
    exact closed X (le_trans sat (Nat.add_le_add_left (weight_mono fun a _ _ h => by simp [h]) _))
  | succ n ih =>
    simp only [satisfiedWithin, decide_eq_true_eq] at sat
    refine closed X (le_trans sat (Nat.add_le_add_left (weight_mono fun a _ _ h => ?_) _))
    simp only [Bool.or_eq_true, decide_eq_true_eq] at h ⊢
    rcases h with h | h
    · exact Or.inl h
    · cases hY : getActive a <;> simp only [hY, Option.any_none, Option.any_some,
        Bool.false_eq_true] at h
      exact Or.inr ⟨_, rfl, ih _ h⟩

end

end FffChain.Authority.Satisfaction
