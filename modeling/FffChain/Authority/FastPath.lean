/- FffChain/Authority/FastPath
   source: libraries/chain/protocol/transaction.cpp, lines 206-377, 454-465
   digest: check_authority sees a signing state only through its signing keys
   and approved_by, so sign_state and sign_state1 agree on every check; the
   single-key path differs from the general one only by the checks it omits. -/

import FffChain.Authority.Transaction

set_option autoImplicit false
set_option relaxedAutoImplicit false

namespace FffChain.Authority.FastPath

open FffChain.Authority.Types FffChain.Authority.Check FffChain.Authority.Transaction

/-! ## What a check observes -/

/-- A signing state as check_authority observes it: the keys signed_by
accepts, and approved_by. -/
abbrev Observed := (PublicKey → Bool) × FlatSet

/-- The signing state made of its observations alone. -/
def observedOps : SignStateOps Observed where
  signedBy o k := (o.1 k, o)
  approvedBy o := o.2
  approve o a := (o.1, o.2.insert a)

section Observe
variable {σ : Type} {ops : SignStateOps σ} {signs : σ → PublicKey → Bool}
  {getActive getOwner : AccountId → Option Authority}

/-- What check_authority observes of a state. -/
def observe (ops : SignStateOps σ) (signs : σ → PublicKey → Bool) (s : σ) : Observed :=
  (signs s, ops.approvedBy s)

private theorem observe_approve (lawful : ops.Lawful signs) (s : σ) (a : AccountId) :
    observe ops signs (ops.approve s a) = observedOps.approve (observe ops signs s) a := by
  simp [observe, observedOps, lawful.signs_approve, lawful.approvedBy_approve]

private theorem checkKeyAuths_observe (lawful : ops.Lawful signs) {threshold : Nat}
    {next : Nat → σ → Bool × σ} {next' : Nat → Observed → Bool × Observed}
    (sim : ∀ t s, Prod.map id (observe ops signs) (next t s) = next' t (observe ops signs s))
    (keys : List (PublicKey × Nat)) (total : Nat) (s : σ) :
    Prod.map id (observe ops signs) (checkKeyAuths ops threshold next keys total s) =
      checkKeyAuths observedOps threshold next' keys total (observe ops signs s) := by
  induction keys generalizing total s with
  | nil => exact sim total s
  | cons kw keys ih =>
    obtain ⟨k, w⟩ := kw
    have signed := lawful.signedBy_fst s k
    have same : observe ops signs (ops.signedBy s k).2 = observe ops signs s :=
      Prod.ext (lawful.signs_signedBy s k) (lawful.approvedBy_signedBy s k)
    simp only [checkKeyAuths]
    rcases h : ops.signedBy s k with ⟨b, s'⟩
    rw [h] at signed same
    have observed : observedOps.signedBy (observe ops signs s) k = (b, observe ops signs s') := by
      rw [same]; exact Prod.ext signed.symm rfl
    rw [observed]
    cases b <;> dsimp only
    · exact ih _ _
    · split_ifs
      · rfl
      · exact ih _ _

private theorem checkAccountAuths_observe (lawful : ops.Lawful signs)
    {recurse : Option (σ → Option Authority → Bool × σ)}
    {recurse' : Option (Observed → Option Authority → Bool × Observed)}
    (sim : Option.Rel (fun f g => ∀ s au, Prod.map id (observe ops signs) (f s au) =
      g (observe ops signs s) au) recurse recurse')
    {threshold : Nat} (accounts : List (AccountId × Nat)) (total : Nat) (s : σ) :
    Prod.map id (observe ops signs) (checkAccountAuths ops getActive recurse threshold accounts total s) =
      checkAccountAuths observedOps getActive recurse' threshold accounts total
        (observe ops signs s) := by
  induction accounts generalizing total s with
  | nil => rfl
  | cons aw accounts ih =>
    obtain ⟨a, w⟩ := aw
    unfold checkAccountAuths
    by_cases approved : a ∈ ops.approvedBy s
    · rw [if_pos approved, if_pos (show a ∈ observedOps.approvedBy (observe ops signs s) from approved)]
      split_ifs
      · rfl
      · exact ih _ _
    · rw [if_neg approved,
        if_neg (show a ∉ observedOps.approvedBy (observe ops signs s) from approved)]
      cases sim with
      | none => rfl
      | some call =>
        rename_i f g
        have e := call s (getActive a)
        dsimp only
        rcases h : f s (getActive a) with ⟨b, s'⟩
        rw [h] at e
        rw [← e]
        cases b <;> simp only [Prod.map_apply, id_eq]
        · exact ih _ _
        · rw [← observe_approve lawful]
          split_ifs
          · rfl
          · exact ih _ _

theorem checkAuthority_observe (lawful : ops.Lawful signs) (n : Nat) (s : σ) (au : Option Authority) :
    Prod.map id (observe ops signs) (checkAuthority ops getActive n s au) =
      checkAuthority observedOps getActive n (observe ops signs s) au := by
  induction n generalizing s au with
  | zero =>
    cases au with
    | none => rfl
    | some X =>
      exact checkKeyAuths_observe lawful (fun t s => checkAccountAuths_observe lawful
        Option.Rel.none X.accountAuths t s) X.keyAuths 0 s
  | succ n ih =>
    cases au with
    | none => rfl
    | some X =>
      exact checkKeyAuths_observe lawful (fun t s => checkAccountAuths_observe lawful
        (Option.Rel.some (fun s au => ih s au)) X.accountAuths t s) X.keyAuths 0 s

theorem checkAuthorityId_observe (lawful : ops.Lawful signs) (n : Nat) (s : σ)
    (account : AccountId) :
    Prod.map id (observe ops signs) (checkAuthorityId ops getActive n s account) =
      checkAuthorityId observedOps getActive n (observe ops signs s) account := by
  unfold checkAuthorityId
  by_cases approved : account ∈ ops.approvedBy s
  · rw [if_pos approved,
      if_pos (show account ∈ observedOps.approvedBy (observe ops signs s) from approved)]
    rfl
  · rw [if_neg approved,
      if_neg (show account ∉ observedOps.approvedBy (observe ops signs s) from approved)]
    exact checkAuthority_observe lawful n s _

theorem checkOther_observe (lawful : ops.Lawful signs) (n : Nat) (others : List Authority)
    (s : σ) :
    Except.map (observe ops signs) (checkOther ops getActive n others s) =
      checkOther observedOps getActive n others (observe ops signs s) := by
  induction others generalizing s with
  | nil => rfl
  | cons X others ih =>
    unfold checkOther
    rw [← checkAuthority_observe lawful n s (some X)]
    rcases checkAuthority ops getActive n s (some X) with ⟨_ | _, s'⟩ <;>
      simp only [Prod.map_apply, id_eq]
    · rfl
    · exact ih s'

theorem checkRequiredActive_observe (lawful : ops.Lawful signs) (n : Nat) (ids : List AccountId)
    (s : σ) :
    Except.map (observe ops signs) (checkRequiredActive ops getActive getOwner n ids s) =
      checkRequiredActive observedOps getActive getOwner n ids (observe ops signs s) := by
  induction ids generalizing s with
  | nil => rfl
  | cons account ids ih =>
    unfold checkRequiredActive
    rw [← checkAuthorityId_observe lawful n s account]
    rcases checkAuthorityId ops getActive n s account with ⟨_ | _, s'⟩ <;>
      simp only [Prod.map_apply, id_eq]
    · rw [← checkAuthority_observe lawful n s' (getOwner account)]
      rcases checkAuthority ops getActive n s' (getOwner account) with ⟨_ | _, s''⟩ <;>
        simp only [Prod.map_apply, id_eq]
      · rfl
      · exact ih s''
    · exact ih s'

theorem checkRequiredOwner_observe (lawful : ops.Lawful signs) (n : Nat) (ownerApprovals : FlatSet)
    (ids : List AccountId) (s : σ) :
    Except.map (observe ops signs) (checkRequiredOwner ops getActive getOwner n ownerApprovals ids s) =
      checkRequiredOwner observedOps getActive getOwner n ownerApprovals ids (observe ops signs s) := by
  induction ids generalizing s with
  | nil => rfl
  | cons account ids ih =>
    unfold checkRequiredOwner
    split_ifs
    · exact ih s
    · rw [← checkAuthority_observe lawful n s (getOwner account)]
      rcases checkAuthority ops getActive n s (getOwner account) with ⟨_ | _, s'⟩ <;>
        simp only [Prod.map_apply, id_eq]
      · rfl
      · exact ih s'

end Observe

/-! ## The single-key path against the general path -/

private theorem bind_related {α β : Type} {f : α → Observed} {g : β → Observed}
    {x : Except Exception α} {y : Except Exception β} (sim : Except.map f x = Except.map g y)
    (R : Except Exception Unit → Except Exception Unit → Prop) (err : ∀ e, R (.error e) (.error e))
    {k₁ : α → Except Exception Unit} {k₂ : β → Except Exception Unit}
    (rest : ∀ a b, f a = g b → R (k₁ a) (k₂ b)) : R (x >>= k₁) (y >>= k₂) := by
  cases x <;> cases y <;> simp only [Except.map, Except.error.injEq, Except.ok.injEq,
    reduceCtorEq] at sim
  · subst sim; exact err _
  · exact rest _ _ sim

section Verify
variable {Op : Type}
  (operationGetRequiredAuthorities : Op → List AccountId × List AccountId × List Authority)
  (grapheneTempAccount grapheneMinerAccount : AccountId)

/-- Without the committee account, verify_authority and verify_authority1 with one key agree, except that the
general path rejects a key never looked up with tx_irrelevant_sig. -/
theorem verifyAuthority_singleKey (operations : List Op) (k : PublicKey)
    (getActive getOwner : AccountId → Option Authority) (maxRecursion : Nat)
    (noCommittee : grapheneMinerAccount ∉
      (getRequiredAuthorities operationGetRequiredAuthorities operations).active) :
    let general := verifyAuthority operationGetRequiredAuthorities grapheneTempAccount
      grapheneMinerAccount operations (FlatSet.empty.insert k) getActive getOwner maxRecursion false
      FlatSet.empty FlatSet.empty
    let fast := verifyAuthority1 operationGetRequiredAuthorities grapheneTempAccount operations k
      getActive getOwner maxRecursion
    general = fast ∨ (fast = .ok () ∧ general = .error .txIrrelevantSig) := by
  intro general fast
  let R : Except Exception Unit → Except Exception Unit → Prop :=
    fun r₁ r₂ => r₁ = r₂ ∨ (r₂ = .ok () ∧ r₁ = .error .txIrrelevantSig)
  have err : ∀ e, R (.error e) (.error e) := fun _ => Or.inl rfl
  have start : observe SignState.ops SignState.signs
      (initialState grapheneTempAccount (FlatSet.empty.insert k) FlatSet.empty FlatSet.empty) =
      observe SignState1.ops SignState1.signs (SignState1.init grapheneTempAccount k) := by
    refine Prod.ext ?_ rfl
    funext k'
    simp [observe, SignState1.signs, SignState1.init]
  show R general fast
  simp only [general, fast, verifyAuthority, verifyAuthority1, Bool.not_false, Bool.true_and,
    decide_eq_true_eq, noCommittee, if_false]
  refine bind_related (by rw [checkOther_observe SignState.lawful, checkOther_observe
    SignState1.lawful, start]) R err fun s₁ t₁ h₁ => ?_
  refine bind_related (by rw [checkRequiredActive_observe SignState.lawful,
    checkRequiredActive_observe SignState1.lawful, h₁]) R err fun s₂ t₂ h₂ => ?_
  rw [checkRequiredOwner1_eq]
  refine bind_related (by rw [checkRequiredOwner_observe SignState.lawful,
    checkRequiredOwner_observe SignState1.lawful, h₂]) R err fun s₃ _ _ => ?_
  split_ifs
  · exact Or.inr ⟨rfl, rfl⟩
  · exact Or.inl rfl

theorem verifyAuthority_singleKey_unitOp :
    (2 ∉ (getRequiredAuthorities (fun _ : Unit => ([1], [], [])) [()]).active) ∧
      (verifyAuthority (fun _ : Unit => ([1], [], [])) 0 2 [()] (FlatSet.empty.insert 5)
          (fun _ => none) (fun _ => none) 3 false FlatSet.empty FlatSet.empty =
        verifyAuthority1 (fun _ : Unit => ([1], [], [])) 0 [()] 5 (fun _ => none) (fun _ => none) 3 ∨
      (verifyAuthority1 (fun _ : Unit => ([1], [], [])) 0 [()] 5 (fun _ => none) (fun _ => none) 3 =
          .ok () ∧
        verifyAuthority (fun _ : Unit => ([1], [], [])) 0 2 [()] (FlatSet.empty.insert 5)
          (fun _ => none) (fun _ => none) 3 false FlatSet.empty FlatSet.empty =
          .error .txIrrelevantSig)) :=
  ⟨by decide, verifyAuthority_singleKey (fun _ : Unit => ([1], [], [])) 0 2 [()] 5
    (fun _ => none) (fun _ => none) 3 (by decide)⟩

/-- Where the two paths part: a committee operation passes only the single-key path, and with no operations
only the general path rejects the key as irrelevant. -/
theorem verifyAuthority1_diverges (k : PublicKey) (maxRecursion : Nat)
    (getActive getOwner : AccountId → Option Authority) :
    let table : Unit → List AccountId × List AccountId × List Authority :=
      fun _ => ([grapheneMinerAccount], [], [])
    let minerActive : AccountId → Option Authority :=
      fun a => if a = grapheneMinerAccount then some ⟨1, [], [(k, 1)]⟩ else none
    (verifyAuthority1 table grapheneTempAccount [()] k minerActive getOwner maxRecursion = .ok () ∧
      verifyAuthority table grapheneTempAccount grapheneMinerAccount [()] (FlatSet.empty.insert k)
        minerActive getOwner maxRecursion false FlatSet.empty FlatSet.empty =
        .error .invalidCommitteeApproval) ∧
    (verifyAuthority1 operationGetRequiredAuthorities grapheneTempAccount [] k getActive getOwner
        maxRecursion = .ok () ∧
      verifyAuthority operationGetRequiredAuthorities grapheneTempAccount grapheneMinerAccount []
        (FlatSet.empty.insert k) getActive getOwner maxRecursion false FlatSet.empty FlatSet.empty =
        .error .txIrrelevantSig) := by
  intro table minerActive
  refine ⟨⟨?_, ?_⟩, ?_, ?_⟩
  · by_cases same : grapheneMinerAccount = grapheneTempAccount <;> cases maxRecursion <;>
      simp [table, minerActive, verifyAuthority1, getRequiredAuthorities, checkOther,
        checkRequiredActive, checkRequiredOwner1, checkAuthorityId, checkAuthority,
        checkAuthorityWith, checkKeyAuths, SignState1.ops, SignState1.signedBy, SignState1.init,
        same, bind, Except.bind, FlatSet.insert, FlatSet.empty, FlatSet.insertSorted]
  · simp [table, verifyAuthority, getRequiredAuthorities]
  · rfl
  · simp [verifyAuthority, getRequiredAuthorities, checkOther, checkRequiredActive, checkRequiredOwner, bind, Except.bind, initialState, SignState.removeUnusedSignatures, SignState.init]

end Verify

end FffChain.Authority.FastPath
