/- FffChain/Authority/Relevance
   source: libraries/chain/protocol/transaction.cpp, lines 114-125, 177-187, 287-339, 454-465
   digest: A passing general verification has looked every given key up in an
   authority it can reach; the key need not have helped satisfy that authority. -/

import FffChain.Authority.Transaction

set_option autoImplicit false
set_option relaxedAutoImplicit false

namespace FffChain.Authority.Relevance

open FffChain.Authority.Types FffChain.Authority.Satisfaction FffChain.Authority.Check
  FffChain.Authority.Transaction

/-- The authorities a verification can look up: the other ones, the active and owner ones of required accounts,
and the active authority of each account an examined authority lists. -/
inductive Examined (getActive getOwner : AccountId → Option Authority)
    (required : RequiredAuthorities) : Authority → Prop
  | other {X : Authority} : X ∈ required.other → Examined getActive getOwner required X
  | active {a : AccountId} {X : Authority} : a ∈ required.active → getActive a = some X →
      Examined getActive getOwner required X
  | activeOwner {a : AccountId} {X : Authority} : a ∈ required.active → getOwner a = some X →
      Examined getActive getOwner required X
  | owner {a : AccountId} {X : Authority} : a ∈ required.owner → getOwner a = some X →
      Examined getActive getOwner required X
  | account {X Y : Authority} {a : AccountId} {w : Nat} : Examined getActive getOwner required X →
      (a, w) ∈ X.accountAuths → getActive a = some Y → Examined getActive getOwner required Y

/-! ## The three loops keep what each check keeps -/

section Frame
variable {σ : Type} {ops : SignStateOps σ} {getActive getOwner : AccountId → Option Authority}
  (E : Authority → Prop)
  (closed : ∀ X a w Y, E X → (a, w) ∈ X.accountAuths → getActive a = some Y → E Y)
  (I : σ → Prop)
  (signedBy_I : ∀ s X k w, E X → (k, w) ∈ X.keyAuths → I s → I (ops.signedBy s k).2)
  (approve_I : ∀ s a, I s → I (ops.approve s a))

include closed signedBy_I approve_I

theorem checkOther_preserves (n : Nat) (others : List Authority) (examined : ∀ X ∈ others, E X)
    (s s' : σ) (ok : checkOther ops getActive n others s = .ok s') (inv : I s) : I s' := by
  induction others generalizing s with
  | nil => cases ok; exact inv
  | cons X others ih =>
    have step := checkAuthority_preserves E closed I signedBy_I approve_I n s (some X)
      (fun _ h => Option.some.inj h ▸ examined X (List.mem_cons_self _ _)) inv
    unfold checkOther at ok
    rcases h : checkAuthority ops getActive n s (some X) with ⟨_ | _, s₁⟩ <;>
      rw [h] at ok step <;> dsimp only at ok step
    · cases ok
    · exact ih (fun Y mem => examined Y (List.mem_cons_of_mem _ mem)) s₁ ok step

theorem checkRequiredActive_preserves (n : Nat) (ids : List AccountId)
    (examined : ∀ a ∈ ids, ∀ X, getActive a = some X ∨ getOwner a = some X → E X)
    (s s' : σ) (ok : checkRequiredActive ops getActive getOwner n ids s = .ok s') (inv : I s) :
    I s' := by
  induction ids generalizing s with
  | nil => cases ok; exact inv
  | cons a ids ih =>
    have here := examined a (List.mem_cons_self _ _)
    have rest := fun b mem => examined b (List.mem_cons_of_mem _ mem)
    unfold checkRequiredActive checkAuthorityId at ok
    split_ifs at ok
    · exact ih rest s ok inv
    · have step₁ := checkAuthority_preserves E closed I signedBy_I approve_I n s (getActive a)
        (fun X h => here X (Or.inl h)) inv
      rcases h₁ : checkAuthority ops getActive n s (getActive a) with ⟨_ | _, s₁⟩ <;>
        rw [h₁] at ok step₁ <;> dsimp only at ok step₁
      · have step₂ := checkAuthority_preserves E closed I signedBy_I approve_I n s₁ (getOwner a)
          (fun X h => here X (Or.inr h)) step₁
        rcases h₂ : checkAuthority ops getActive n s₁ (getOwner a) with ⟨_ | _, s₂⟩ <;>
          rw [h₂] at ok step₂ <;> dsimp only at ok step₂
        · cases ok
        · exact ih rest s₂ ok step₂
      · exact ih rest s₁ ok step₁

theorem checkRequiredOwner_preserves (n : Nat) (ownerApprovals : FlatSet) (ids : List AccountId)
    (examined : ∀ a ∈ ids, ∀ X, getOwner a = some X → E X)
    (s s' : σ) (ok : checkRequiredOwner ops getActive getOwner n ownerApprovals ids s = .ok s')
    (inv : I s) : I s' := by
  induction ids generalizing s with
  | nil => cases ok; exact inv
  | cons a ids ih =>
    have rest := fun b mem => examined b (List.mem_cons_of_mem _ mem)
    unfold checkRequiredOwner at ok
    split_ifs at ok
    · exact ih rest s ok inv
    · have step := checkAuthority_preserves E closed I signedBy_I approve_I n s (getOwner a)
        (examined a (List.mem_cons_self _ _)) inv
      rcases h : checkAuthority ops getActive n s (getOwner a) with ⟨_ | _, s₁⟩ <;>
        rw [h] at ok step <;> dsimp only at ok step
      · cases ok
      · exact ih rest s₁ ok step

end Frame

/-! ## Every used key is listed by an examined authority -/

/-- What sign_state keeps during a verification from `sigs`: the given keys
stay provided, and each key marked used is listed by an authority of `E`. -/
def UsedListed (E : Authority → Prop) (sigs : FlatSet) (s : SignState) : Prop :=
  sigs ⊆ s.providedSignatures ∧ ∀ k ∈ s.usedSignatures, ∃ X, E X ∧ ∃ w, (k, w) ∈ X.keyAuths

theorem usedListed_signedBy {E : Authority → Prop} {sigs : FlatSet} {s : SignState} {X : Authority}
    {k : PublicKey} {w : Nat} (examined : E X) (listed : (k, w) ∈ X.keyAuths)
    (inv : UsedListed E sigs s) : UsedListed E sigs (SignState.signedBy s k).2 := by
  have used : ∀ u ∈ s.usedSignatures.insert k, ∃ X, E X ∧ ∃ w, (u, w) ∈ X.keyAuths := by
    intro u mem
    rcases FlatSet.mem_insert.mp mem with rfl | mem
    · exact ⟨X, examined, w, listed⟩
    · exact inv.2 u mem
  unfold SignState.signedBy
  split_ifs
  · exact ⟨inv.1, used⟩
  · exact ⟨FlatSet.subset_trans inv.1 (FlatSet.subset_insert _ k), used⟩
  · exact inv

section Verify
variable {Op : Type}
  (operationGetRequiredAuthorities : Op → List AccountId × List AccountId × List Authority)
  (grapheneTempAccount grapheneMinerAccount : AccountId)

theorem verifyAuthority_keysListed (operations : List Op) (sigs : FlatSet)
    (getActive getOwner : AccountId → Option Authority) (maxRecursionDepth : Nat)
    (allowCommittee : Bool) (activeAprovals ownerApprovals : FlatSet)
    (ok : verifyAuthority operationGetRequiredAuthorities grapheneTempAccount grapheneMinerAccount
      operations sigs getActive getOwner maxRecursionDepth allowCommittee activeAprovals
      ownerApprovals = .ok ()) :
    ∀ k ∈ sigs, ∃ X, Examined getActive getOwner
      (getRequiredAuthorities operationGetRequiredAuthorities operations) X ∧
        ∃ w, (k, w) ∈ X.keyAuths := by
  set E := Examined getActive getOwner
    (getRequiredAuthorities operationGetRequiredAuthorities operations)
  have closed : ∀ X a w Y, E X → (a, w) ∈ X.accountAuths → getActive a = some Y → E Y :=
    fun _ _ _ _ ex mem h => Examined.account ex mem h
  have signedBy_I : ∀ s X k w, E X → (k, w) ∈ X.keyAuths → UsedListed E sigs s →
      UsedListed E sigs (SignState.ops.signedBy s k).2 :=
    fun _ _ _ _ ex listed inv => usedListed_signedBy ex listed inv
  have approve_I : ∀ s a, UsedListed E sigs s → UsedListed E sigs (SignState.ops.approve s a) :=
    fun _ _ inv => inv
  dsimp only [verifyAuthority] at ok
  split_ifs at ok
  obtain ⟨s₁, ok₁, ok⟩ := bind_eq_ok.mp ok
  obtain ⟨s₂, ok₂, ok⟩ := bind_eq_ok.mp ok
  obtain ⟨s₃, ok₃, ok⟩ := bind_eq_ok.mp ok
  have inv₀ : UsedListed E sigs (initialState grapheneTempAccount sigs activeAprovals ownerApprovals) :=
    ⟨FlatSet.subset_refl _, fun k mem => absurd mem (FlatSet.not_mem_empty k)⟩
  have inv₁ := checkOther_preserves E closed _ signedBy_I approve_I _ _
    (fun _ mem => Examined.other mem) _ _ ok₁ inv₀
  have inv₂ := checkRequiredActive_preserves E closed _ signedBy_I approve_I _ _
    (fun _ mem _ h => h.elim (Examined.active mem) (Examined.activeOwner mem)) _ _ ok₂ inv₁
  have inv₃ := checkRequiredOwner_preserves E closed _ signedBy_I approve_I _ _ _
    (fun _ mem _ h => Examined.owner mem h) _ _ ok₃ inv₂
  have unused : (SignState.removeUnusedSignatures s₃).1 = false := by
    by_contra h
    simp [h] at ok
  simp only [SignState.removeUnusedSignatures, List.any_eq_false, decide_eq_true_eq,
    not_not, FlatSet.mem_elems] at unused
  exact fun k mem => inv₃.2 k (unused k (inv₃.1 k mem))

/-- When signed_transaction::verify_authority passes with other than one key, each key is listed by an
authority the verification can examine. -/
theorem signedTransactionVerifyAuthority_keysListed (operations : List Op) (sigKeys : FlatSet)
    (getActive getOwner : AccountId → Option Authority) (maxRecursion : Nat)
    (general : sigKeys.elems.length ≠ 1)
    (ok : signedTransactionVerifyAuthority operationGetRequiredAuthorities grapheneTempAccount
      grapheneMinerAccount operations sigKeys getActive getOwner maxRecursion = .ok ()) :
    ∀ k ∈ sigKeys, ∃ X, Examined getActive getOwner
      (getRequiredAuthorities operationGetRequiredAuthorities operations) X ∧
        ∃ w, (k, w) ∈ X.keyAuths := by
  unfold signedTransactionVerifyAuthority at ok
  split at ok
  · rename_i one
    simp [one] at general
  · exact verifyAuthority_keysListed operationGetRequiredAuthorities grapheneTempAccount
      grapheneMinerAccount operations sigKeys getActive getOwner maxRecursion false FlatSet.empty
      FlatSet.empty ok

theorem signedTransactionVerifyAuthority_keysListed_twoKeys :
    (FlatSet.ofList [10, 11]).elems.length ≠ 1 ∧
    signedTransactionVerifyAuthority (fun _ : Unit => ([1], [], [])) 0 2 [()]
      (FlatSet.ofList [10, 11]) (fun a => if a = 1 then some ⟨2, [], [(10, 1)]⟩ else none)
      (fun a => if a = 1 then some ⟨1, [], [(11, 1)]⟩ else none) 3 = .ok () ∧
    ∀ k ∈ FlatSet.ofList [10, 11], ∃ X, Examined
      (fun a => if a = 1 then some ⟨2, [], [(10, 1)]⟩ else none)
      (fun a => if a = 1 then some ⟨1, [], [(11, 1)]⟩ else none)
      (getRequiredAuthorities (fun _ : Unit => ([1], [], [])) [()]) X ∧ ∃ w, (k, w) ∈ X.keyAuths :=
  ⟨by decide, rfl, signedTransactionVerifyAuthority_keysListed (fun _ : Unit => ([1], [], [])) 0 2
    [()] (FlatSet.ofList [10, 11]) (fun a => if a = 1 then some ⟨2, [], [(10, 1)]⟩ else none)
    (fun a => if a = 1 then some ⟨1, [], [(11, 1)]⟩ else none) 3 (by decide) rfl⟩

/-- A key looked up in an authority that then fails: key 10 is marked used by account 1's active authority,
which needs weight 2, and is listed by no authority the two keys satisfy. -/
theorem signedTransactionVerifyAuthority_unsatisfiedKey :
    signedTransactionVerifyAuthority (fun _ : Unit => ([1], [], [])) 0 2 [()]
      (FlatSet.ofList [10, 11]) (fun a => if a = 1 then some ⟨2, [], [(10, 1)]⟩ else none)
      (fun a => if a = 1 then some ⟨1, [], [(11, 1)]⟩ else none) 3 = .ok () ∧
    ¬ ∃ X, Examined (fun a => if a = 1 then some ⟨2, [], [(10, 1)]⟩ else none)
        (fun a => if a = 1 then some ⟨1, [], [(11, 1)]⟩ else none)
        (getRequiredAuthorities (fun _ : Unit => ([1], [], [])) [()]) X ∧
      Sat (fun k => decide (k ∈ FlatSet.ofList [10, 11])) (fun a => decide (a = 0))
        (fun a => if a = 1 then some ⟨2, [], [(10, 1)]⟩ else none) X ∧
      ∃ w, (10, w) ∈ X.keyAuths := by
  refine ⟨rfl, ?_⟩
  rintro ⟨X, ex, ⟨n, sat⟩, w, mem⟩
  obtain rfl | rfl : X = ⟨2, [], [(10, 1)]⟩ ∨ X = ⟨1, [], [(11, 1)]⟩ := by
    clear sat mem
    induction ex with
    | other h => simp [getRequiredAuthorities] at h
    | active _ h => split_ifs at h; exact Or.inl (Option.some.inj h).symm
    | activeOwner _ h => split_ifs at h; exact Or.inr (Option.some.inj h).symm
    | owner h => simp [getRequiredAuthorities] at h
    | account _ mem _ ih => rcases ih with rfl | rfl <;> simp at mem
  · cases n <;> simp [satisfiedWithin] at sat
  · simp at mem

end Verify

end FffChain.Authority.Relevance
