/- FffChain/Authority/Completeness
   source: libraries/chain/protocol/transaction.cpp, lines 138-175, 229-264
   digest: check_authority passes on every authority satisfied within the depth
   bound as its cut-off decides it: at the last level only the approved accounts
   listed before the first unapproved one count. -/

import FffChain.Authority.Check

set_option autoImplicit false
set_option relaxedAutoImplicit false

namespace FffChain.Authority.Completeness

open FffChain.Authority.Types FffChain.Authority.Satisfaction FffChain.Authority.Check

/-! ## Satisfaction as the depth cut-off decides it -/

/-- The sum of all the weights of an authority; the uint32 total_weight of
check_authority never wraps when it is below 2^32. -/
def totalWeight (X : Authority) : Nat :=
  (X.keyAuths.map Prod.snd).sum + (X.accountAuths.map Prod.snd).sum

section
variable (signed : PublicKey → Bool) (preApproved : AccountId → Bool)
  (getActive : AccountId → Option Authority)

/-- `guardedWithin b X`: `X` is satisfied with `b` levels left as check_authority decides it: at the last level only
the approved accounts before the first other one count, and a zero threshold needs a signed key or approved first account. -/
def guardedWithin : Nat → Authority → Bool
  | 0, X => X.weightThreshold ≤ weight signed X.keyAuths +
        ((X.accountAuths.takeWhile (fun aw => preApproved aw.1)).map Prod.snd).sum &&
      (X.keyAuths.any (fun kw => signed kw.1) ||
        X.accountAuths.head?.all (fun aw => preApproved aw.1))
  | n + 1, X => X.weightThreshold ≤ weight signed X.keyAuths +
      weight (fun a => preApproved a || (getActive a).any (guardedWithin n)) X.accountAuths

private theorem sum_takeWhile_le_weight (accounts : List (AccountId × Nat)) :
    ((accounts.takeWhile (fun aw => preApproved aw.1)).map Prod.snd).sum ≤
      weight preApproved accounts := by
  induction accounts with
  | nil => simp
  | cons aw accounts ih =>
    obtain ⟨a, w⟩ := aw
    cases h : preApproved a <;> simp [List.takeWhile_cons, h, ih]

theorem satisfiedWithin_of_guardedWithin {n : Nat} {X : Authority}
    (sat : guardedWithin signed preApproved getActive n X = true) :
    satisfiedWithin signed preApproved getActive n X = true := by
  induction n generalizing X with
  | zero =>
    simp only [guardedWithin, satisfiedWithin, Bool.and_eq_true, decide_eq_true_eq] at sat ⊢
    have := sum_takeWhile_le_weight preApproved X.accountAuths
    omega
  | succ n ih =>
    simp only [guardedWithin, satisfiedWithin, decide_eq_true_eq] at sat ⊢
    refine le_trans sat (Nat.add_le_add_left (weight_mono fun a _ _ h => ?_) _)
    simp only [Bool.or_eq_true] at h ⊢
    refine h.imp id fun h => ?_
    cases hY : getActive a with
    | none => simp [hY] at h
    | some Y => simp only [hY, Option.any_some] at h ⊢; exact ih h

end

theorem guardedWithin_mono {signed signed' : PublicKey → Bool} {preApproved : AccountId → Bool}
    {getActive : AccountId → Option Authority} (more : ∀ k, signed k = true → signed' k = true)
    {n : Nat} {X : Authority} (sat : guardedWithin signed preApproved getActive n X = true) :
    guardedWithin signed' preApproved getActive n X = true := by
  have keys : weight signed X.keyAuths ≤ weight signed' X.keyAuths :=
    weight_mono fun k _ _ h => more k h
  induction n generalizing X with
  | zero =>
    simp only [guardedWithin, Bool.and_eq_true, Bool.or_eq_true, decide_eq_true_eq,
      List.any_eq_true] at sat ⊢
    obtain ⟨reach, ⟨kw, mem, h⟩ | first⟩ := sat
    · exact ⟨by omega, Or.inl ⟨kw, mem, more _ h⟩⟩
    · exact ⟨by omega, Or.inr first⟩
  | succ n ih =>
    simp only [guardedWithin, decide_eq_true_eq] at sat ⊢
    refine le_trans sat (Nat.add_le_add keys (weight_mono fun a _ _ h => ?_))
    simp only [Bool.or_eq_true] at h ⊢
    refine h.imp id fun h => ?_
    cases hY : getActive a with
    | none => simp [hY] at h
    | some Y =>
      simp only [hY, Option.any_some] at h ⊢
      exact ih h (weight_mono fun k _ _ h => more k h)

/-! ## The loops reach every threshold they should -/

section Complete
variable {σ : Type} {ops : SignStateOps σ} {signs : σ → PublicKey → Bool}
  {getActive : AccountId → Option Authority} {signed : PublicKey → Bool}
  {preApproved : AccountId → Bool}

private theorem checkAccountAuths_cutoff {threshold : Nat} (accounts : List (AccountId × Nat))
    (total : Nat) (s : σ) (approved : ∀ a, preApproved a = true → a ∈ ops.approvedBy s)
    (fits : total + (accounts.map Prod.snd).sum < 2 ^ 32)
    (reach : threshold ≤ total +
      ((accounts.takeWhile (fun aw => preApproved aw.1)).map Prod.snd).sum)
    (start : total < threshold ∨ accounts.head?.all (fun aw => preApproved aw.1) = true) :
    (checkAccountAuths ops getActive none threshold accounts total s).1 = true := by
  induction accounts generalizing total with
  | nil => simpa [checkAccountAuths] using reach
  | cons aw accounts ih =>
    obtain ⟨a, w⟩ := aw
    simp only [List.map_cons, List.sum_cons] at fits
    by_cases pre : preApproved a = true
    · simp only [List.takeWhile_cons, pre, ↓reduceIte, List.map_cons, List.sum_cons] at reach
      rw [checkAccountAuths, if_pos (approved a pre), Nat.mod_eq_of_lt (by omega)]
      split_ifs with reached
      · rfl
      · exact ih (total + w) (by omega) (by omega) (Or.inl (by omega))
    · simp only [Bool.not_eq_true] at pre
      simp only [List.takeWhile_cons, pre, Bool.false_eq_true, ↓reduceIte, List.map_nil,
        List.sum_nil, List.head?_cons, Option.all_some, or_false] at reach start
      omega

private theorem checkAccountAuths_complete (lawful : ops.Lawful signs) {n : Nat}
    (check : σ → Option Authority → Bool × σ)
    (extends_check : ∀ s au, signs (check s au).2 = signs s ∧
      ops.approvedBy s ⊆ ops.approvedBy (check s au).2)
    (complete : ∀ s a Y, getActive a = some Y → signs s = signed →
      (∀ a, preApproved a = true → a ∈ ops.approvedBy s) →
      guardedWithin signed preApproved getActive n Y = true → (check s (some Y)).1 = true)
    {threshold : Nat} (accounts : List (AccountId × Nat)) (total : Nat) (s : σ)
    (signs_eq : signs s = signed) (approved : ∀ a, preApproved a = true → a ∈ ops.approvedBy s)
    (fits : total + (accounts.map Prod.snd).sum < 2 ^ 32)
    (reach : threshold ≤ total + weight (fun a => preApproved a ||
      (getActive a).any (guardedWithin signed preApproved getActive n)) accounts) :
    (checkAccountAuths ops getActive (some check) threshold accounts total s).1 = true := by
  induction accounts generalizing total s with
  | nil => simpa [checkAccountAuths] using reach
  | cons aw accounts ih =>
    obtain ⟨a, w⟩ := aw
    simp only [List.map_cons, List.sum_cons] at fits
    simp only [weight_cons] at reach
    have counted := fun s' (signs' : signs s' = signed)
        (approved' : ∀ a, preApproved a = true → a ∈ ops.approvedBy s') =>
      ih (total + w) s' signs' approved' (by omega) (by split_ifs at reach <;> omega)
    unfold checkAccountAuths
    by_cases mem : a ∈ ops.approvedBy s
    · rw [if_pos mem, Nat.mod_eq_of_lt (by omega)]
      split_ifs
      · rfl
      · exact counted s signs_eq approved
    · rw [if_neg mem]
      have pre : preApproved a = false := by
        by_contra h; exact mem (approved a (Bool.not_eq_false _ ▸ h))
      obtain ⟨signs₁, grown⟩ := extends_check s (getActive a)
      dsimp only
      rcases h : check s (getActive a) with ⟨_ | _, s₁⟩ <;> rw [h] at signs₁ grown <;>
        dsimp only at signs₁ grown ⊢
      · have skipped : (getActive a).any (guardedWithin signed preApproved getActive n) = false := by
          cases hY : getActive a with
          | none => rfl
          | some Y =>
            by_contra sat
            have := complete s a Y hY signs_eq approved (by simpa [hY] using sat)
            rw [← hY, h] at this
            exact Bool.false_ne_true this
        simp only [pre, skipped, Bool.or_false, Bool.false_eq_true, ↓reduceIte,
          Nat.zero_add] at reach
        exact ih total s₁ (signs₁.trans signs_eq) (fun b hb => grown b (approved b hb)) (by omega)
          reach
      · have signs₂ : signs (ops.approve s₁ a) = signed :=
          (lawful.signs_approve s₁ a).trans (signs₁.trans signs_eq)
        have approved₂ : ∀ b, preApproved b = true → b ∈ ops.approvedBy (ops.approve s₁ a) :=
          fun b hb => by
            rw [lawful.approvedBy_approve]
            exact FlatSet.subset_insert _ a b (grown b (approved b hb))
        rw [Nat.mod_eq_of_lt (by omega)]
        split_ifs
        · rfl
        · exact counted _ signs₂ approved₂

private theorem checkKeyAuths_complete (lawful : ops.Lawful signs) {threshold : Nat}
    (next : Nat → σ → Bool × σ) (keys : List (PublicKey × Nat)) (s : σ)
    (fits : (keys.map Prod.snd).sum < 2 ^ 32)
    (then_next : ∀ s', signs s' = signs s → ops.approvedBy s' = ops.approvedBy s →
      (weight (signs s) keys < threshold ∨
        weight (signs s) keys = 0 ∧ ∀ kw ∈ keys, signs s kw.1 = false) →
      (next (weight (signs s) keys) s').1 = true) :
    (checkKeyAuths ops threshold next keys 0 s).1 = true := by
  have bounded := weight_le_sum (signs s) keys
  obtain ⟨s', signs', approved', ⟨early, -⟩ | ⟨t, -, exact, below, eq⟩⟩ :=
    checkKeyAuths_cases lawful threshold next keys 0 s
  · rw [early]
  · rw [Nat.zero_add] at exact
    rw [eq, exact (by omega)]
    rw [exact (by omega)] at below
    exact then_next s' signs' approved' below

variable (getActive)

/-- Completeness of check_authority: it passes on every authority satisfied as the depth cut-off decides it. -/
theorem checkAuthority_complete (lawful : ops.Lawful signs)
    (fits : ∀ a Y, getActive a = some Y → totalWeight Y < 2 ^ 32) (n : Nat) (s : σ)
    (X : Authority) (fitsX : totalWeight X < 2 ^ 32) (signs_eq : signs s = signed)
    (approved : ∀ a, preApproved a = true → a ∈ ops.approvedBy s)
    (sat : guardedWithin signed preApproved getActive n X = true) :
    (checkAuthority ops getActive n s (some X)).1 = true := by
  unfold totalWeight at fitsX
  induction n generalizing s X with
  | zero =>
    simp only [guardedWithin, Bool.and_eq_true, Bool.or_eq_true, decide_eq_true_eq,
      List.any_eq_true] at sat
    obtain ⟨reach, start⟩ := sat
    have keys := weight_le_sum (signs s) X.keyAuths
    refine checkKeyAuths_complete lawful _ X.keyAuths s (by omega) fun s' signs' approved' below =>
      checkAccountAuths_cutoff X.accountAuths _ s' (approved' ▸ approved) (by omega)
        (signs_eq ▸ reach) ?_
    rcases below with below | ⟨-, unsigned⟩
    · exact Or.inl below
    · refine Or.inr (start.resolve_left fun ⟨kw, mem, h⟩ => ?_)
      rw [← signs_eq, unsigned kw mem] at h
      exact Bool.false_ne_true h
  | succ n ih =>
    simp only [guardedWithin, decide_eq_true_eq] at sat
    have keys := weight_le_sum (signs s) X.keyAuths
    exact checkKeyAuths_complete lawful _ X.keyAuths s (by omega) fun s' signs' approved' _ =>
      checkAccountAuths_complete lawful _ (checkAuthority_extends lawful n)
        (fun s₁ a Y hY signs₁ approved₁ satY =>
          ih s₁ Y (by have := fits a Y hY; unfold totalWeight at this; omega) signs₁ approved₁ satY)
        X.accountAuths _ s' (signs'.trans signs_eq) (approved' ▸ approved) (by omega)
        (signs_eq ▸ sat)

end Complete

/-! ## Fresh signing states -/

/-- check_authority(&X, 0) on fresh sign_state and sign_state1 passes on every authority the keys satisfy as the
depth cut-off decides it, which is then satisfied within the bound, when no total weight reaches 2^32. -/
theorem checkAuthority_guardedComplete (X : Authority) (getActive : AccountId → Option Authority)
    (maxRecursion : Nat) (P K : FlatSet) (k : PublicKey) (fitsX : totalWeight X < 2 ^ 32)
    (fits : ∀ a Y, getActive a = some Y → totalWeight Y < 2 ^ 32) :
    (guardedWithin (fun k => decide (k ∈ K)) (fun a => decide (a ∈ P)) getActive maxRecursion X =
        true →
      satisfiedWithin (fun k => decide (k ∈ K)) (fun a => decide (a ∈ P)) getActive maxRecursion X = true ∧
      (checkAuthority SignState.ops getActive maxRecursion
        ⟨K, FlatSet.empty, FlatSet.empty, P⟩ (some X)).1 = true) ∧
    (guardedWithin (fun k' => decide (k' = k)) (fun a => decide (a ∈ P)) getActive maxRecursion X =
        true →
      (checkAuthority SignState1.ops getActive maxRecursion ⟨k, P⟩ (some X)).1 = true) :=
  ⟨fun guarded => ⟨satisfiedWithin_of_guardedWithin _ _ _ guarded,
      checkAuthority_complete getActive SignState.lawful fits _ _ X fitsX
        (by funext k; simp [SignState.signs]) (fun _ h => of_decide_eq_true h) guarded⟩,
    checkAuthority_complete getActive SignState1.lawful fits _ _ X fitsX rfl
      fun _ h => of_decide_eq_true h⟩

theorem checkAuthority_guardedComplete_oneLevel :
    totalWeight ⟨2, [(0, 1)], [(10, 1)]⟩ < 2 ^ 32 ∧
    (∀ a Y, (fun _ => none : AccountId → Option Authority) a = some Y → totalWeight Y < 2 ^ 32) ∧
    guardedWithin (fun k => decide (k ∈ FlatSet.ofList [10])) (fun a => decide (a ∈ FlatSet.ofList [0]))
      (fun _ => none) 1 ⟨2, [(0, 1)], [(10, 1)]⟩ = true ∧
    guardedWithin (fun k' => decide (k' = 10)) (fun a => decide (a ∈ FlatSet.ofList [0]))
      (fun _ => none) 1 ⟨2, [(0, 1)], [(10, 1)]⟩ = true ∧
    (guardedWithin (fun k => decide (k ∈ FlatSet.ofList [10])) (fun a => decide (a ∈ FlatSet.ofList [0]))
        (fun _ => none) 1 ⟨2, [(0, 1)], [(10, 1)]⟩ = true →
      satisfiedWithin (fun k => decide (k ∈ FlatSet.ofList [10])) (fun a => decide (a ∈ FlatSet.ofList [0]))
        (fun _ => none) 1 ⟨2, [(0, 1)], [(10, 1)]⟩ = true ∧
      (checkAuthority SignState.ops (fun _ => none) 1
        ⟨FlatSet.ofList [10], FlatSet.empty, FlatSet.empty, FlatSet.ofList [0]⟩
        (some ⟨2, [(0, 1)], [(10, 1)]⟩)).1 = true) ∧
    (guardedWithin (fun k' => decide (k' = 10)) (fun a => decide (a ∈ FlatSet.ofList [0]))
        (fun _ => none) 1 ⟨2, [(0, 1)], [(10, 1)]⟩ = true →
      (checkAuthority SignState1.ops (fun _ => none) 1 ⟨10, FlatSet.ofList [0]⟩
        (some ⟨2, [(0, 1)], [(10, 1)]⟩)).1 = true) :=
  ⟨by decide, fun _ _ h => Option.noConfusion h, by decide, by decide,
    checkAuthority_guardedComplete ⟨2, [(0, 1)], [(10, 1)]⟩ (fun _ => none) 1 (FlatSet.ofList [0])
      (FlatSet.ofList [10]) 10 (by decide) fun _ _ h => Option.noConfusion h⟩

/-- With no recursion left, account 1 is not approved, so the check fails
before it reaches account 2, whose pre-approval alone meets the threshold. -/
theorem checkAuthority_cutoffFails :
    totalWeight ⟨1, [(1, 1), (2, 1)], []⟩ < 2 ^ 32 ∧
    satisfiedWithin (fun k => decide (k ∈ FlatSet.empty)) (fun a => decide (a ∈ FlatSet.ofList [0, 2]))
      (fun _ => none) 0 ⟨1, [(1, 1), (2, 1)], []⟩ = true ∧
    (checkAuthority SignState.ops (fun _ => none) 0
      ⟨FlatSet.empty, FlatSet.empty, FlatSet.empty, FlatSet.ofList [0, 2]⟩
      (some ⟨1, [(1, 1), (2, 1)], []⟩)).1 = false := by
  decide

/-- Monotonicity in the keys, for the satisfaction check_authority decides: the check passes from every larger key set. -/
theorem checkAuthority_monotone (X : Authority) (getActive : AccountId → Option Authority)
    (maxRecursion : Nat) (P K K' : FlatSet) (sub : K ⊆ K') (fitsX : totalWeight X < 2 ^ 32)
    (fits : ∀ a Y, getActive a = some Y → totalWeight Y < 2 ^ 32)
    (sat : guardedWithin (fun k => decide (k ∈ K)) (fun a => decide (a ∈ P)) getActive
      maxRecursion X = true) :
    (checkAuthority SignState.ops getActive maxRecursion ⟨K', FlatSet.empty, FlatSet.empty, P⟩
      (some X)).1 = true :=
  checkAuthority_complete getActive SignState.lawful fits _ _ X fitsX
    (by funext k; simp [SignState.signs]) (fun _ h => of_decide_eq_true h)
    (guardedWithin_mono (fun k h => decide_eq_true (sub k (of_decide_eq_true h))) sat)

theorem checkAuthority_monotone_extraKey :
    FlatSet.ofList [10] ⊆ FlatSet.ofList [10, 11] ∧ totalWeight ⟨2, [(0, 1)], [(10, 1)]⟩ < 2 ^ 32 ∧
    (∀ a Y, (fun _ => none : AccountId → Option Authority) a = some Y → totalWeight Y < 2 ^ 32) ∧
    guardedWithin (fun k => decide (k ∈ FlatSet.ofList [10])) (fun a => decide (a ∈ FlatSet.ofList [0]))
      (fun _ => none) 1 ⟨2, [(0, 1)], [(10, 1)]⟩ = true ∧
    (checkAuthority SignState.ops (fun _ => none) 1
      ⟨FlatSet.ofList [10, 11], FlatSet.empty, FlatSet.empty, FlatSet.ofList [0]⟩
      (some ⟨2, [(0, 1)], [(10, 1)]⟩)).1 = true :=
  ⟨fun _ h => by simp at h ⊢; omega, by decide, fun _ _ h => Option.noConfusion h, by decide,
    checkAuthority_monotone ⟨2, [(0, 1)], [(10, 1)]⟩ (fun _ => none) 1 (FlatSet.ofList [0])
      (FlatSet.ofList [10]) (FlatSet.ofList [10, 11]) (fun _ h => by simp at h ⊢; omega)
      (by decide) (fun _ _ h => Option.noConfusion h) (by decide)⟩

/-- An extra key makes the check fail at depth 2: with key 11 account 1 passes at once, account 3 is never
approved, and account 4 fails at the last level, where with key 10 alone it passed through 3's memo. -/
theorem checkAuthority_extraKeyFails :
    FlatSet.ofList [10] ⊆ FlatSet.ofList [10, 11] ∧
    (checkAuthority SignState.ops (fun a => [(1, ⟨1, [(3, 1)], [(11, 1)]⟩), (2, ⟨1, [(4, 1)], []⟩),
        (3, ⟨1, [], [(10, 1)]⟩), (4, ⟨1, [(3, 1)], []⟩)].lookup a) 2
      ⟨FlatSet.ofList [10], FlatSet.empty, FlatSet.empty, FlatSet.ofList [0]⟩
      (some ⟨2, [(1, 1), (2, 1)], []⟩)).1 = true ∧
    (checkAuthority SignState.ops (fun a => [(1, ⟨1, [(3, 1)], [(11, 1)]⟩), (2, ⟨1, [(4, 1)], []⟩),
        (3, ⟨1, [], [(10, 1)]⟩), (4, ⟨1, [(3, 1)], []⟩)].lookup a) 2
      ⟨FlatSet.ofList [10, 11], FlatSet.empty, FlatSet.empty, FlatSet.ofList [0]⟩
      (some ⟨2, [(1, 1), (2, 1)], []⟩)).1 = false :=
  ⟨fun _ h => by simp at h ⊢; omega, by decide, by decide⟩

end FffChain.Authority.Completeness
