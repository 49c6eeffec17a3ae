/- FffChain/Authority/Minimize
   source: libraries/chain/protocol/transaction.cpp, lines 287-339, 393-452
   digest: minimize_required_signatures keeps a passing key set passing while it
   drops keys, but get_required_signatures, which it starts from, never tries
   the owner fallback verify_authority accepts. -/

import FffChain.Authority.Transaction

set_option autoImplicit false
set_option relaxedAutoImplicit false

namespace FffChain.Authority.Minimize

open FffChain.Authority.Types FffChain.Authority.Check FffChain.Authority.Transaction

theorem bind_eq_error {α β : Type} {x : Except Exception α} {f : α → Except Exception β}
    {e : Exception} : x >>= f = .error e ↔ x = .error e ∨ ∃ a, x = .ok a ∧ f a = .error e := by
  cases x <;> simp [bind, Except.bind]

/-! ## Only the committee check throws invalid_committee_approval -/

section Loops
variable {σ : Type} {ops : SignStateOps σ} {getActive getOwner : AccountId → Option Authority}
  {maxRecursion : Nat}

private theorem checkOther_ne_committee (others : List Authority) (s : σ) :
    checkOther ops getActive maxRecursion others s ≠ .error .invalidCommitteeApproval := by
  induction others generalizing s with
  | nil => simp [checkOther]
  | cons X others ih =>
    unfold checkOther
    rcases checkAuthority ops getActive maxRecursion s (some X) with ⟨_ | _, s₁⟩
    · simp
    · exact ih s₁

private theorem checkRequiredActive_ne_committee (ids : List AccountId) (s : σ) :
    checkRequiredActive ops getActive getOwner maxRecursion ids s ≠
      .error .invalidCommitteeApproval := by
  induction ids generalizing s with
  | nil => simp [checkRequiredActive]
  | cons a ids ih =>
    unfold checkRequiredActive
    rcases checkAuthorityId ops getActive maxRecursion s a with ⟨_ | _, s₁⟩ <;> dsimp only
    · rcases checkAuthority ops getActive maxRecursion s₁ (getOwner a) with ⟨_ | _, s₂⟩
      · simp
      · exact ih s₂
    · exact ih s₁

private theorem checkRequiredOwner_ne_committee (ownerApprovals : FlatSet) (ids : List AccountId)
    (s : σ) :
    checkRequiredOwner ops getActive getOwner maxRecursion ownerApprovals ids s ≠
      .error .invalidCommitteeApproval := by
  induction ids generalizing s with
  | nil => simp [checkRequiredOwner]
  | cons a ids ih =>
    unfold checkRequiredOwner
    split_ifs
    · exact ih s
    · rcases checkAuthority ops getActive maxRecursion s (getOwner a) with ⟨_ | _, s₁⟩
      · simp
      · exact ih s₁

end Loops

section Verify
variable {Op : Type}
  (operationGetRequiredAuthorities : Op → List AccountId × List AccountId × List Authority)
  (grapheneTempAccount grapheneMinerAccount : AccountId)

theorem verifyAuthority_committee (operations : List Op) (sigs : FlatSet)
    (getActive getOwner : AccountId → Option Authority) (maxRecursionDepth : Nat)
    (allowCommittee : Bool) (activeAprovals ownerApprovals : FlatSet) :
    verifyAuthority operationGetRequiredAuthorities grapheneTempAccount grapheneMinerAccount
        operations sigs getActive getOwner maxRecursionDepth allowCommittee activeAprovals
        ownerApprovals = .error .invalidCommitteeApproval ↔
      (!allowCommittee && grapheneMinerAccount ∈
        (getRequiredAuthorities operationGetRequiredAuthorities operations).active) = true := by
  dsimp only [verifyAuthority]
  split_ifs with committee
  · simpa using committee
  · refine iff_of_false (fun h => ?_) committee
    rcases bind_eq_error.mp h with h | ⟨s₁, -, h⟩
    · exact checkOther_ne_committee _ _ h
    rcases bind_eq_error.mp h with h | ⟨s₂, -, h⟩
    · exact checkRequiredActive_ne_committee _ _ h
    rcases bind_eq_error.mp h with h | ⟨s₃, -, h⟩
    · exact checkRequiredOwner_ne_committee _ _ _ h
    split_ifs at h
    cases h

/-! ## The minimisation loop keeps a passing key set passing -/

theorem minimizeLoop_sound (operations : List Op) (getActive getOwner : AccountId → Option Authority)
    (maxRecursion : Nat) (keys : List PublicKey) (result : FlatSet) (distinct : keys.Nodup)
    (held : ∀ k ∈ keys, k ∈ result)
    (passes : verifyAuthority operationGetRequiredAuthorities grapheneTempAccount
      grapheneMinerAccount operations result getActive getOwner maxRecursion false FlatSet.empty
      FlatSet.empty = .ok ()) :
    (∀ R, minimizeLoop operationGetRequiredAuthorities grapheneTempAccount grapheneMinerAccount
        operations getActive getOwner maxRecursion keys result = .ok R →
      verifyAuthority operationGetRequiredAuthorities grapheneTempAccount grapheneMinerAccount
        operations R getActive getOwner maxRecursion false FlatSet.empty FlatSet.empty = .ok () ∧
      R ⊆ result) ∧
    (∀ e, minimizeLoop operationGetRequiredAuthorities grapheneTempAccount grapheneMinerAccount
        operations getActive getOwner maxRecursion keys result = .error e →
      e = .txIrrelevantSig) := by
  induction keys generalizing result with
  | nil =>
    refine ⟨fun R done => ?_, fun e done => (nomatch done)⟩
    cases done
    exact ⟨passes, FlatSet.subset_refl _⟩
  | cons k keys ih =>
    obtain ⟨fresh, distinct⟩ := List.nodup_cons.mp distinct
    have back := FlatSet.erase_insert (held k (List.mem_cons_self _ _))
    have kept := ih result distinct (fun j mem => held j (List.mem_cons_of_mem _ mem)) passes
    have no_committee : (!false && grapheneMinerAccount ∈
        (getRequiredAuthorities operationGetRequiredAuthorities operations).active) ≠ true :=
      fun h => nomatch passes.symm.trans ((verifyAuthority_committee operationGetRequiredAuthorities
        grapheneTempAccount grapheneMinerAccount operations result _ _ _ _ _ _).mpr h)
    unfold minimizeLoop
    rcases h : verifyAuthority operationGetRequiredAuthorities grapheneTempAccount
      grapheneMinerAccount operations (result.erase k) getActive getOwner maxRecursion false
      FlatSet.empty FlatSet.empty with e | ⟨⟩
    · cases e with
      | invalidCommitteeApproval =>
        exact absurd ((verifyAuthority_committee operationGetRequiredAuthorities
          grapheneTempAccount grapheneMinerAccount _ _ _ _ _ _ _ _).mp h) no_committee
      | txIrrelevantSig =>
        dsimp only
        exact ⟨fun R done => (nomatch done), fun e done => by cases done; rfl⟩
      | txMissingOtherAuth | txMissingActiveAuth | txMissingOwnerAuth =>
        dsimp only; rw [back]; exact kept
    · dsimp only
      obtain ⟨sound, fails⟩ := ih (result.erase k) distinct (fun j mem => FlatSet.mem_erase.mpr
        ⟨held j (List.mem_cons_of_mem _ mem), fun e => fresh (e ▸ mem)⟩) h
      exact ⟨fun R done => (sound R done).imp_right fun sub x mem =>
        (FlatSet.mem_erase.mp (sub x mem)).1, fails⟩

/-- When verify_authority accepts the keys get_required_signatures found, minimize_required_signatures
returns available keys verify_authority accepts, or throws tx_irrelevant_sig. -/
theorem minimizeRequiredSignatures_sound (operations : List Op)
    (signatureKeys availableKeys : FlatSet) (getActive getOwner : AccountId → Option Authority)
    (maxRecursion : Nat)
    (found : verifyAuthority operationGetRequiredAuthorities grapheneTempAccount
      grapheneMinerAccount operations
      (getRequiredSignatures operationGetRequiredAuthorities grapheneTempAccount operations
        signatureKeys availableKeys getActive getOwner maxRecursion)
      getActive getOwner maxRecursion false FlatSet.empty FlatSet.empty = .ok ()) :
    (∀ R, minimizeRequiredSignatures operationGetRequiredAuthorities grapheneTempAccount
        grapheneMinerAccount operations signatureKeys availableKeys getActive getOwner
        maxRecursion = .ok R →
      verifyAuthority operationGetRequiredAuthorities grapheneTempAccount grapheneMinerAccount
        operations R getActive getOwner maxRecursion false FlatSet.empty FlatSet.empty = .ok () ∧
      R ⊆ availableKeys) ∧
    (∀ e, minimizeRequiredSignatures operationGetRequiredAuthorities grapheneTempAccount
        grapheneMinerAccount operations signatureKeys availableKeys getActive getOwner
        maxRecursion = .error e → e = .txIrrelevantSig) := by
  set s := getRequiredSignatures operationGetRequiredAuthorities grapheneTempAccount operations
    signatureKeys availableKeys getActive getOwner maxRecursion with hs
  have available : s ⊆ availableKeys := fun x mem => by
    rw [hs] at mem
    exact (FlatSet.mem_filter.mp mem).2 |> of_decide_eq_true
  obtain ⟨sound, fails⟩ := minimizeLoop_sound operationGetRequiredAuthorities grapheneTempAccount
    grapheneMinerAccount operations getActive getOwner maxRecursion s.elems s s.sorted.nodup
    (fun _ h => h) found
  exact ⟨fun R done => (sound R done).imp_right fun sub => FlatSet.subset_trans sub available,
    fails⟩

theorem minimizeRequiredSignatures_oneActiveKey :
    verifyAuthority (fun _ : Unit => ([2], [], [])) 0 1 [()]
      (getRequiredSignatures (fun _ : Unit => ([2], [], [])) 0 [()] FlatSet.empty
        (FlatSet.ofList [10]) (fun a => if a = 2 then some ⟨1, [], [(10, 1)]⟩ else none)
        (fun _ => none) 2)
      (fun a => if a = 2 then some ⟨1, [], [(10, 1)]⟩ else none) (fun _ => none) 2 false
      FlatSet.empty FlatSet.empty = .ok () ∧
    (∀ R, minimizeRequiredSignatures (fun _ : Unit => ([2], [], [])) 0 1 [()] FlatSet.empty
        (FlatSet.ofList [10]) (fun a => if a = 2 then some ⟨1, [], [(10, 1)]⟩ else none)
        (fun _ => none) 2 = .ok R →
      verifyAuthority (fun _ : Unit => ([2], [], [])) 0 1 [()] R
        (fun a => if a = 2 then some ⟨1, [], [(10, 1)]⟩ else none) (fun _ => none) 2 false
        FlatSet.empty FlatSet.empty = .ok () ∧ R ⊆ FlatSet.ofList [10]) ∧
    (∀ e, minimizeRequiredSignatures (fun _ : Unit => ([2], [], [])) 0 1 [()] FlatSet.empty
        (FlatSet.ofList [10]) (fun a => if a = 2 then some ⟨1, [], [(10, 1)]⟩ else none)
        (fun _ => none) 2 = .error e → e = .txIrrelevantSig) :=
  ⟨rfl, minimizeRequiredSignatures_sound (fun _ : Unit => ([2], [], [])) 0 1 [()] FlatSet.empty
    (FlatSet.ofList [10]) (fun a => if a = 2 then some ⟨1, [], [(10, 1)]⟩ else none)
    (fun _ => none) 2 rfl⟩

/-! ## get_required_signatures misses the owner fallback -/

/-- An account whose owner authority alone lists the available key: get_required_signatures finds no key,
and minimize_required_signatures returns the empty set, which verify_authority rejects. -/
theorem minimizeRequiredSignatures_ownerOnly (A : AccountId) (k₁ k₂ : PublicKey)
    (maxRecursion : Nat) (notTemp : A ≠ grapheneTempAccount) (notMiner : A ≠ grapheneMinerAccount)
    (distinct : k₁ ≠ k₂) :
    let table : Unit → List AccountId × List AccountId × List Authority := fun _ => ([A], [], [])
    let getActive : AccountId → Option Authority :=
      fun a => if a = A then some ⟨1, [], [(k₁, 1)]⟩ else none
    let getOwner : AccountId → Option Authority :=
      fun a => if a = A then some ⟨1, [], [(k₂, 1)]⟩ else none
    verifyAuthority table grapheneTempAccount grapheneMinerAccount [()] (FlatSet.empty.insert k₂)
        getActive getOwner maxRecursion false FlatSet.empty FlatSet.empty = .ok () ∧
    minimizeRequiredSignatures table grapheneTempAccount grapheneMinerAccount [()] FlatSet.empty
        (FlatSet.empty.insert k₂) getActive getOwner maxRecursion = .ok FlatSet.empty ∧
    verifyAuthority table grapheneTempAccount grapheneMinerAccount [()] FlatSet.empty getActive
        getOwner maxRecursion false FlatSet.empty FlatSet.empty = .error (.txMissingActiveAuth A) := by
  intro table getActive getOwner
  refine ⟨?_, ?_, ?_⟩ <;> cases maxRecursion <;>
    simp [table, getActive, getOwner, verifyAuthority, minimizeRequiredSignatures,
      getRequiredSignatures, minimizeLoop, getRequiredAuthorities, checkOther, checkRequiredActive,
      checkRequiredOwner, checkAuthorityId, checkAuthority, checkAuthorityWith, checkKeyAuths,
      checkAccountAuths, SignState.ops, SignState.signedBy, SignState.removeUnusedSignatures,
      SignState.init, initialState, notTemp, notMiner, distinct, Ne.symm notMiner, bind,
      Except.bind]

theorem minimizeRequiredSignatures_ownerOnly_account2 :
    ((2 : AccountId) ≠ 0 ∧ (2 : AccountId) ≠ 1 ∧ (10 : PublicKey) ≠ 11) ∧
    verifyAuthority (fun _ : Unit => ([2], [], [])) 0 1 [()] (FlatSet.empty.insert 11)
        (fun a => if a = 2 then some ⟨1, [], [(10, 1)]⟩ else none)
        (fun a => if a = 2 then some ⟨1, [], [(11, 1)]⟩ else none) 2 false FlatSet.empty
        FlatSet.empty = .ok () ∧
    minimizeRequiredSignatures (fun _ : Unit => ([2], [], [])) 0 1 [()] FlatSet.empty
        (FlatSet.empty.insert 11) (fun a => if a = 2 then some ⟨1, [], [(10, 1)]⟩ else none)
        (fun a => if a = 2 then some ⟨1, [], [(11, 1)]⟩ else none) 2 = .ok FlatSet.empty ∧
    verifyAuthority (fun _ : Unit => ([2], [], [])) 0 1 [()] FlatSet.empty
        (fun a => if a = 2 then some ⟨1, [], [(10, 1)]⟩ else none)
        (fun a => if a = 2 then some ⟨1, [], [(11, 1)]⟩ else none) 2 false FlatSet.empty
        FlatSet.empty = .error (.txMissingActiveAuth 2) :=
  ⟨by decide, minimizeRequiredSignatures_ownerOnly 0 1 2 10 11 2 (by decide) (by decide)
    (by decide)⟩

end Verify

end FffChain.Authority.Minimize
