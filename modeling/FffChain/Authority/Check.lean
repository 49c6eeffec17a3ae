/- FffChain/Authority/Check
   source: libraries/chain/protocol/transaction.cpp, lines 109-285
   digest: check_authority of sign_state and sign_state1 as one algorithm over
   the signing state, by recursion on the depth left. -/

import FffChain.Authority.Satisfaction

set_option autoImplicit false
set_option relaxedAutoImplicit false

namespace FffChain.Authority.Check

open FffChain.Authority.Types FffChain.Authority.Satisfaction

/-- What check_authority reads and writes of a signing state: signed_by, the
approved_by set and its insert. sign_state and sign_state1 differ only here. -/
structure SignStateOps (σ : Type) where
  signedBy : σ → PublicKey → Bool × σ
  approvedBy : σ → FlatSet
  approve : σ → AccountId → σ

section Algorithm
variable {σ : Type} (ops : SignStateOps σ) (getActive : AccountId → Option Authority)

/-- The account_auths loop of check_authority (lines 153-174); `recurse` is none when depth == max_recursion,
where an account not yet approved fails the check. total_weight is a uint32_t. -/
def checkAccountAuths (recurse : Option (σ → Option Authority → Bool × σ)) (threshold : Nat) :
    List (AccountId × Nat) → Nat → σ → Bool × σ
  | [], total, s => (decide (threshold ≤ total), s)
  | (a, w) :: rest, total, s =>
    if a ∈ ops.approvedBy s then
      if threshold ≤ (total + w) % 2 ^ 32 then (true, s)
      else checkAccountAuths recurse threshold rest ((total + w) % 2 ^ 32) s
    else match recurse with
      | none => (false, s)
      | some check =>
        match check s (getActive a) with
        | (true, s') =>
          if threshold ≤ (total + w) % 2 ^ 32 then (true, ops.approve s' a)
          else checkAccountAuths recurse threshold rest ((total + w) % 2 ^ 32) (ops.approve s' a)
        | (false, s') => checkAccountAuths recurse threshold rest total s'

/-- The key_auths loop of check_authority (lines 143-150); `next` is the
account_auths loop that follows it. -/
def checkKeyAuths (threshold : Nat) (next : Nat → σ → Bool × σ) :
    List (PublicKey × Nat) → Nat → σ → Bool × σ
  | [], total, s => next total s
  | (k, w) :: rest, total, s =>
    match ops.signedBy s k with
    | (true, s') =>
      if threshold ≤ (total + w) % 2 ^ 32 then (true, s')
      else checkKeyAuths threshold next rest ((total + w) % 2 ^ 32) s'
    | (false, s') => checkKeyAuths threshold next rest total s'

/-- The body of check_authority(au, depth), given its recursive call. -/
def checkAuthorityWith (recurse : Option (σ → Option Authority → Bool × σ)) (s : σ) :
    Option Authority → Bool × σ
  | none => (false, s)
  | some auth => checkKeyAuths ops auth.weightThreshold
      (checkAccountAuths ops getActive recurse auth.weightThreshold auth.accountAuths)
      auth.keyAuths 0 s

/-- check_authority(au, depth) of sign_state and sign_state1, by recursion on max_recursion - depth. -/
def checkAuthority : Nat → σ → Option Authority → Bool × σ
  | 0 => checkAuthorityWith ops getActive none
  | b + 1 => checkAuthorityWith ops getActive (some (checkAuthority b))

/-- check_authority(account_id_type id): true at once for an approved account,
else the check of its active authority. -/
def checkAuthorityId (budget : Nat) (s : σ) (id : AccountId) : Bool × σ :=
  if id ∈ ops.approvedBy s then (true, s) else checkAuthority ops getActive budget s (getActive id)

end Algorithm

/-! ## The two signing states -/

/-- sign_state, with provided_signatures kept as its keys and the keys whose used flag is true. -/
structure SignState where
  providedSignatures : FlatSet
  usedSignatures : FlatSet
  availableKeys : FlatSet
  approvedBy : FlatSet
deriving DecidableEq

namespace SignState

/-- The constructor sign_state(sigs, get_active): every key unused, and
GRAPHENE_TEMP_ACCOUNT approved. -/
def init (GRAPHENE_TEMP_ACCOUNT : AccountId) (sigs : FlatSet) : SignState :=
  ⟨sigs, FlatSet.empty, FlatSet.empty, FlatSet.empty.insert GRAPHENE_TEMP_ACCOUNT⟩

/-- sign_state::signed_by: a provided key is marked used; an available key is
added to the provided ones, marked used. -/
def signedBy (s : SignState) (k : PublicKey) : Bool × SignState :=
  if k ∈ s.providedSignatures then (true, { s with usedSignatures := s.usedSignatures.insert k })
  else if k ∈ s.availableKeys then
    (true, { s with providedSignatures := s.providedSignatures.insert k,
                    usedSignatures := s.usedSignatures.insert k })
  else (false, s)

/-- sign_state::remove_unused_signatures: erase the unused keys and say whether
there were any. -/
def removeUnusedSignatures (s : SignState) : Bool × SignState :=
  (s.providedSignatures.elems.any (· ∉ s.usedSignatures),
    { s with providedSignatures := s.providedSignatures.filter (· ∈ s.usedSignatures) })

/-- The operations of sign_state. -/
def ops : SignStateOps SignState where
  signedBy := signedBy
  approvedBy := approvedBy
  approve s a := { s with approvedBy := s.approvedBy.insert a }

end SignState

/-- sign_state1, the state for exactly one key. Its provided_signature flag is
set once and never read, so it is left out. -/
structure SignState1 where
  providedSignatureKey : PublicKey
  approvedBy : FlatSet
deriving DecidableEq

namespace SignState1

/-- The constructor sign_state1(sig, get_active). -/
def init (GRAPHENE_TEMP_ACCOUNT : AccountId) (sig : PublicKey) : SignState1 :=
  ⟨sig, FlatSet.empty.insert GRAPHENE_TEMP_ACCOUNT⟩

/-- sign_state1::signed_by compares with the one key and changes nothing. -/
def signedBy (s : SignState1) (k : PublicKey) : Bool × SignState1 :=
  (decide (k = s.providedSignatureKey), s)

/-- The operations of sign_state1. -/
def ops : SignStateOps SignState1 where
  signedBy := signedBy
  approvedBy := approvedBy
  approve s a := { s with approvedBy := s.approvedBy.insert a }

end SignState1

/-! ## The contract of a signing state -/

/-- What check_authority relies on: signed_by answers from a fixed set of keys, and only approving an
account changes approved_by, by inserting it. -/
structure SignStateOps.Lawful {σ : Type} (ops : SignStateOps σ) (signs : σ → PublicKey → Bool) :
    Prop where
  signedBy_fst : ∀ s k, (ops.signedBy s k).1 = signs s k
  signs_signedBy : ∀ s k, signs (ops.signedBy s k).2 = signs s
  approvedBy_signedBy : ∀ s k, ops.approvedBy (ops.signedBy s k).2 = ops.approvedBy s
  signs_approve : ∀ s a, signs (ops.approve s a) = signs s
  approvedBy_approve : ∀ s a, ops.approvedBy (ops.approve s a) = (ops.approvedBy s).insert a

namespace SignState

/-- The keys sign_state::signed_by accepts: the provided and the available ones. -/
def signs (s : SignState) (k : PublicKey) : Bool :=
  decide (k ∈ s.providedSignatures ∨ k ∈ s.availableKeys)

theorem lawful : ops.Lawful signs where
  signedBy_fst s k := by
    show (signedBy s k).1 = _
    unfold signedBy signs; split_ifs <;> simp_all
  signs_signedBy s k := by
    show signs (signedBy s k).2 = _
    funext x
    unfold signedBy signs
    split_ifs
    · rfl
    · by_cases x = k <;> simp_all
    · rfl
  approvedBy_signedBy s k := by
    show (signedBy s k).2.approvedBy = _
    unfold signedBy; split_ifs <;> rfl
  signs_approve _ _ := rfl
  approvedBy_approve _ _ := rfl

end SignState

namespace SignState1

/-- The one key sign_state1::signed_by accepts. -/
def signs (s : SignState1) (k : PublicKey) : Bool := decide (k = s.providedSignatureKey)

theorem lawful : ops.Lawful signs where
  signedBy_fst _ _ := rfl
  signs_signedBy _ _ := rfl
  approvedBy_signedBy _ _ := rfl
  signs_approve _ _ := rfl
  approvedBy_approve _ _ := rfl

end SignState1

/-! ## Frame: what a check can change -/

section Frame
variable {σ : Type} {ops : SignStateOps σ} {getActive : AccountId → Option Authority}
  (E : Authority → Prop)
  (closed : ∀ X a w Y, E X → (a, w) ∈ X.accountAuths → getActive a = some Y → E Y)
  (I : σ → Prop)
  (signedBy_I : ∀ s X k w, E X → (k, w) ∈ X.keyAuths → I s → I (ops.signedBy s k).2)
  (approve_I : ∀ s a, I s → I (ops.approve s a))

include signedBy_I in
private theorem checkKeyAuths_preserves {X : Authority} (examined : E X) {threshold : Nat}
    {next : Nat → σ → Bool × σ} (next_I : ∀ t s, I s → I (next t s).2)
    (keys : List (PublicKey × Nat)) (sub : ∀ kw ∈ keys, kw ∈ X.keyAuths) (total : Nat) (s : σ)
    (inv : I s) : I (checkKeyAuths ops threshold next keys total s).2 := by
  induction keys generalizing total s with
  | nil => exact next_I total s inv
  | cons kw keys ih =>
    obtain ⟨k, w⟩ := kw
    have step := signedBy_I s X k w examined (sub _ (List.mem_cons_self _ _)) inv
    have tail := fun kw mem => sub kw (List.mem_cons_of_mem _ mem)
    simp only [checkKeyAuths]
    rcases h : ops.signedBy s k with ⟨_ | _, s'⟩ <;> rw [h] at step <;> dsimp only
    · exact ih tail _ _ step
    · split_ifs
      · exact step
      · exact ih tail _ _ step

include closed approve_I in
private theorem checkAccountAuths_preserves {X : Authority} (examined : E X)
    (recurse : Option (σ → Option Authority → Bool × σ)) {threshold : Nat}
    (recurse_I : ∀ f, recurse = some f → ∀ s au, (∀ Y, au = some Y → E Y) → I s → I (f s au).2)
    (accounts : List (AccountId × Nat)) (sub : ∀ aw ∈ accounts, aw ∈ X.accountAuths)
    (total : Nat) (s : σ) (inv : I s) :
    I (checkAccountAuths ops getActive recurse threshold accounts total s).2 := by
  induction accounts generalizing total s with
  | nil => exact inv
  | cons aw accounts ih =>
    obtain ⟨a, w⟩ := aw
    have tail := fun aw mem => sub aw (List.mem_cons_of_mem _ mem)
    unfold checkAccountAuths
    by_cases approved : a ∈ ops.approvedBy s
    · rw [if_pos approved]
      split_ifs
      · exact inv
      · exact ih tail _ _ inv
    · rw [if_neg approved]
      rcases recurse with _ | f
      · exact inv
      · have call := recurse_I f rfl s (getActive a)
          (fun Y hY => closed X a w Y examined (sub _ (List.mem_cons_self _ _)) hY) inv
        dsimp only
        rcases h : f s (getActive a) with ⟨_ | _, s'⟩ <;> rw [h] at call <;> dsimp only
        · exact ih tail _ _ call
        · split_ifs
          · exact approve_I s' a call
          · exact ih tail _ _ (approve_I s' a call)

include closed signedBy_I approve_I in
theorem checkAuthority_preserves (n : Nat) (s : σ) (au : Option Authority)
    (examined : ∀ X, au = some X → E X) (inv : I s) : I (checkAuthority ops getActive n s au).2 := by
  induction n generalizing s au with
  | zero =>
    cases au with
    | none => exact inv
    | some X =>
      exact checkKeyAuths_preserves E I signedBy_I (examined X rfl)
        (fun t s inv => checkAccountAuths_preserves E closed I approve_I (examined X rfl) none
          (fun _ h => nomatch h) X.accountAuths (fun _ h => h) t s inv) X.keyAuths
        (fun _ h => h) 0 s inv
  | succ n ih =>
    cases au with
    | none => exact inv
    | some X =>
      exact checkKeyAuths_preserves E I signedBy_I (examined X rfl)
        (fun t s inv => checkAccountAuths_preserves E closed I approve_I (examined X rfl)
          (some (checkAuthority ops getActive n)) (fun _ h => Option.some.inj h ▸ ih)
          X.accountAuths (fun _ h => h) t s inv) X.keyAuths (fun _ h => h) 0 s inv

end Frame

section Lawful
variable {σ : Type} {ops : SignStateOps σ} {signs : σ → PublicKey → Bool}
  {getActive : AccountId → Option Authority}

theorem checkAuthority_extends (lawful : ops.Lawful signs) (n : Nat) (s : σ)
    (au : Option Authority) :
    signs (checkAuthority ops getActive n s au).2 = signs s ∧
      ops.approvedBy s ⊆ ops.approvedBy (checkAuthority ops getActive n s au).2 :=
  checkAuthority_preserves (fun _ => True) (fun _ _ _ _ _ _ _ => trivial)
    (fun s' => signs s' = signs s ∧ ops.approvedBy s ⊆ ops.approvedBy s')
    (fun s₁ _ k _ _ _ inv => ⟨(lawful.signs_signedBy s₁ k).trans inv.1,
      (lawful.approvedBy_signedBy s₁ k).symm ▸ inv.2⟩)
    (fun s₁ a inv => ⟨(lawful.signs_approve s₁ a).trans inv.1, (lawful.approvedBy_approve s₁ a).symm ▸
      FlatSet.subset_trans inv.2 (FlatSet.subset_insert _ a)⟩)
    n s au (fun _ _ => trivial) ⟨rfl, FlatSet.subset_refl _⟩

theorem checkKeyAuths_cases (lawful : ops.Lawful signs) (threshold : Nat)
    (next : Nat → σ → Bool × σ) (keys : List (PublicKey × Nat)) (total : Nat) (s : σ) :
    ∃ s', signs s' = signs s ∧ ops.approvedBy s' = ops.approvedBy s ∧
      ((checkKeyAuths ops threshold next keys total s = (true, s') ∧
          threshold ≤ total + weight (signs s) keys) ∨
        ∃ t, t ≤ total + weight (signs s) keys ∧
          (total + weight (signs s) keys < 2 ^ 32 → t = total + weight (signs s) keys) ∧
          (t < threshold ∨ t = total ∧ ∀ kw ∈ keys, signs s kw.1 = false) ∧
          checkKeyAuths ops threshold next keys total s = next t s') := by
  induction keys generalizing total s with
  | nil => exact ⟨s, rfl, rfl, Or.inr ⟨total, by simp, by simp, Or.inr ⟨rfl, by simp⟩, rfl⟩⟩
  | cons kw keys ih =>
    obtain ⟨k, w⟩ := kw
    have signed := lawful.signedBy_fst s k
    have same_signs := lawful.signs_signedBy s k
    have same_approved := lawful.approvedBy_signedBy s k
    rcases h : ops.signedBy s k with ⟨_ | _, s₁⟩ <;> rw [h] at signed same_signs same_approved <;>
      simp only [checkKeyAuths, h, weight_cons, ← signed, Bool.false_eq_true, ↓reduceIte,
        Nat.zero_add] <;>
      dsimp only at same_signs same_approved
    · obtain ⟨s', e₁, e₂, early | ⟨t, le, exact, below, eq⟩⟩ := ih total s₁
      · exact ⟨s', e₁.trans same_signs, e₂.trans same_approved, Or.inl (same_signs ▸ early)⟩
      · refine ⟨s', e₁.trans same_signs, e₂.trans same_approved, Or.inr ⟨t, same_signs ▸ le,
          same_signs ▸ exact, ?_, eq⟩⟩
        rcases below with below | ⟨rfl, unsigned⟩
        · exact Or.inl below
        · refine Or.inr ⟨rfl, fun kw mem => ?_⟩
          rcases List.mem_cons.mp mem with rfl | mem
          · exact signed.symm
          · exact same_signs ▸ unsigned kw mem
    · split_ifs with reached
      · exact ⟨s₁, same_signs, same_approved, Or.inl ⟨rfl, by
          have := Nat.mod_le (total + w) (2 ^ 32); omega⟩⟩
      · have wrap := Nat.mod_le (total + w) (2 ^ 32)
        obtain ⟨s', e₁, e₂, early | ⟨t, le, exact, below, eq⟩⟩ := ih ((total + w) % 2 ^ 32) s₁
        · exact ⟨s', e₁.trans same_signs, e₂.trans same_approved, Or.inl ⟨early.1, by
            rw [same_signs] at early; omega⟩⟩
        · rw [same_signs] at le exact below
          refine ⟨s', e₁.trans same_signs, e₂.trans same_approved, Or.inr ⟨t, by omega,
            fun fits => ?_, Or.inl ?_, eq⟩⟩
          · rw [exact (by rw [Nat.mod_eq_of_lt (by omega)]; omega), Nat.mod_eq_of_lt (by omega)]
            omega
          · rcases below with below | ⟨rfl, -⟩ <;> omega

end Lawful

end FffChain.Authority.Check
