/- FffChain/Authority/Soundness
   source: libraries/chain/protocol/transaction.cpp, lines 109-377, 454-465
   digest: A check that passes is backed by the keys: every authority the
   operations require is satisfied by the signing keys, through every memo
   shared between checks and every wrap of the uint32 running total. -/

import FffChain.Authority.Transaction

set_option autoImplicit false
set_option relaxedAutoImplicit false

namespace FffChain.Authority.Soundness

open FffChain.Authority.Types FffChain.Authority.Satisfaction FffChain.Authority.Check
  FffChain.Authority.Transaction

/-! ## A passing check is paid for -/

section Weight
variable {σ : Type} {ops : SignStateOps σ} {signs : σ → PublicKey → Bool}
  {getActive : AccountId → Option Authority}

private theorem checkAccountAuths_true (lawful : ops.Lawful signs)
    (recurse : Option (σ → Option Authority → Bool × σ))
    (grows : ∀ f, recurse = some f → ∀ s au, ops.approvedBy s ⊆ ops.approvedBy (f s au).2)
    {threshold : Nat} (accounts : List (AccountId × Nat)) (total : Nat) (s s' : σ)
    (pass : checkAccountAuths ops getActive recurse threshold accounts total s = (true, s')) :
    ops.approvedBy s ⊆ ops.approvedBy s' ∧
      threshold ≤ total + weight (· ∈ ops.approvedBy s') accounts := by
  induction accounts generalizing total s with
  | nil =>
    simp only [checkAccountAuths, Prod.mk.injEq, decide_eq_true_eq] at pass
    obtain ⟨le, rfl⟩ := pass
    exact ⟨FlatSet.subset_refl _, by simpa using le⟩
  | cons aw accounts ih =>
    obtain ⟨a, w⟩ := aw
    have wrap := Nat.mod_le (total + w) (2 ^ 32)
    unfold checkAccountAuths at pass
    by_cases approved : a ∈ ops.approvedBy s
    · rw [if_pos approved] at pass
      split_ifs at pass with reached
      · simp only [Prod.mk.injEq, true_and] at pass
        subst pass
        exact ⟨FlatSet.subset_refl _, by simp only [weight_cons, approved]; simp; omega⟩
      · obtain ⟨sub, le⟩ := ih _ _ pass
        exact ⟨sub, by simp only [weight_cons, sub a approved]; simp; omega⟩
    · rw [if_neg approved] at pass
      rcases recurse with _ | f
      · simp at pass
      · have grown := grows f rfl s (getActive a)
        dsimp only at pass
        rcases h : f s (getActive a) with ⟨_ | _, s₁⟩ <;> rw [h] at pass grown <;>
          dsimp only at pass grown
        · obtain ⟨sub, le⟩ := ih _ _ pass
          refine ⟨FlatSet.subset_trans grown sub, le.trans ?_⟩
          simp only [weight_cons]
          omega
        · have mem : a ∈ ops.approvedBy (ops.approve s₁ a) := by
            rw [lawful.approvedBy_approve]; exact FlatSet.mem_insert.mpr (Or.inl rfl)
          have grown' : ops.approvedBy s ⊆ ops.approvedBy (ops.approve s₁ a) := by
            rw [lawful.approvedBy_approve]
            exact FlatSet.subset_trans grown (FlatSet.subset_insert _ a)
          split_ifs at pass
          · simp only [Prod.mk.injEq, true_and] at pass
            subst pass
            exact ⟨grown', by simp only [weight_cons, mem]; simp; omega⟩
          · obtain ⟨sub, le⟩ := ih _ _ pass
            exact ⟨FlatSet.subset_trans grown' sub, by
              simp only [weight_cons, sub a mem]; simp; omega⟩

private theorem checkAuthorityWith_true (lawful : ops.Lawful signs)
    (recurse : Option (σ → Option Authority → Bool × σ))
    (grows : ∀ f, recurse = some f → ∀ s au, ops.approvedBy s ⊆ ops.approvedBy (f s au).2)
    (s : σ) (X : Authority) (s' : σ)
    (pass : checkAuthorityWith ops getActive recurse s (some X) = (true, s')) :
    ops.approvedBy s ⊆ ops.approvedBy s' ∧ X.weightThreshold ≤
      weight (signs s) X.keyAuths + weight (· ∈ ops.approvedBy s') X.accountAuths := by
  dsimp only [checkAuthorityWith] at pass
  obtain ⟨s₁, -, same, ⟨eq, le⟩ | ⟨t, le, -, -, eq⟩⟩ := checkKeyAuths_cases lawful
    X.weightThreshold (checkAccountAuths ops getActive recurse X.weightThreshold X.accountAuths)
    X.keyAuths 0 s
  · rw [eq, Prod.mk.injEq] at pass
    obtain ⟨-, rfl⟩ := pass
    exact ⟨same ▸ FlatSet.subset_refl _, by omega⟩
  · rw [eq] at pass
    obtain ⟨sub, le'⟩ := checkAccountAuths_true lawful recurse grows _ _ _ _ pass
    exact ⟨same ▸ sub, by omega⟩

end Weight

/-! ## Every approval is earned -/

section Approvals
variable {σ : Type} {ops : SignStateOps σ} {signs : σ → PublicKey → Bool}
  {getActive : AccountId → Option Authority} (signed : PublicKey → Bool)
  (preApproved : AccountId → Bool)

/-- The invariant of a signing state: every approved account counts, being
pre-approved or having its active authority satisfied. -/
def ApprovalsCount (ops : SignStateOps σ) (getActive : AccountId → Option Authority) (s : σ) :
    Prop :=
  ∀ a, a ∈ ops.approvedBy s → Counts signed preApproved getActive a

/-- What a sound recursive call guarantees. -/
private def SoundCall (ops : SignStateOps σ) (signs : σ → PublicKey → Bool)
    (getActive : AccountId → Option Authority) (f : σ → Option Authority → Bool × σ) : Prop :=
  ∀ s au, signs s = signed → ApprovalsCount signed preApproved ops getActive s →
    signs (f s au).2 = signed ∧ ApprovalsCount signed preApproved ops getActive (f s au).2 ∧
      ((f s au).1 = true → ∃ Y, au = some Y ∧ Sat signed preApproved getActive Y)

private theorem checkAccountAuths_keeps (lawful : ops.Lawful signs)
    (recurse : Option (σ → Option Authority → Bool × σ))
    (sound : ∀ f, recurse = some f → SoundCall signed preApproved ops signs getActive f)
    {threshold : Nat} (accounts : List (AccountId × Nat)) (total : Nat) (s : σ)
    (signs_eq : signs s = signed) (inv : ApprovalsCount signed preApproved ops getActive s) :
    let r := checkAccountAuths ops getActive recurse threshold accounts total s
    signs r.2 = signed ∧ ApprovalsCount signed preApproved ops getActive r.2 := by
  induction accounts generalizing total s with
  | nil => exact ⟨signs_eq, inv⟩
  | cons aw accounts ih =>
    obtain ⟨a, w⟩ := aw
    unfold checkAccountAuths
    by_cases approved : a ∈ ops.approvedBy s
    · rw [if_pos approved]
      split_ifs
      · exact ⟨signs_eq, inv⟩
      · exact ih _ _ signs_eq inv
    · rw [if_neg approved]
      rcases recurse with _ | f
      · exact ⟨signs_eq, inv⟩
      · obtain ⟨signs₁, inv₁, sat⟩ := sound f rfl s (getActive a) signs_eq inv
        dsimp only
        rcases h : f s (getActive a) with ⟨_ | _, s₁⟩ <;> rw [h] at signs₁ inv₁ sat <;>
          dsimp only at signs₁ inv₁ sat ⊢
        · exact ih _ _ signs₁ inv₁
        · obtain ⟨Y, hY, satY⟩ := sat rfl
          have keep : signs (ops.approve s₁ a) = signed ∧
              ApprovalsCount signed preApproved ops getActive (ops.approve s₁ a) := by
            refine ⟨(lawful.signs_approve s₁ a).trans signs₁, fun b mem => ?_⟩
            rw [lawful.approvedBy_approve, FlatSet.mem_insert] at mem
            rcases mem with rfl | mem
            · exact Or.inr ⟨Y, hY, satY⟩
            · exact inv₁ b mem
          split_ifs
          · exact keep
          · exact ih _ _ keep.1 keep.2

private theorem checkAuthorityWith_sound (lawful : ops.Lawful signs)
    (recurse : Option (σ → Option Authority → Bool × σ))
    (grows : ∀ f, recurse = some f → ∀ s au, ops.approvedBy s ⊆ ops.approvedBy (f s au).2)
    (sound : ∀ f, recurse = some f → SoundCall signed preApproved ops signs getActive f) :
    SoundCall signed preApproved ops signs getActive (checkAuthorityWith ops getActive recurse) := by
  intro s au signs_eq inv
  cases au with
  | none => exact ⟨signs_eq, inv, by simp [checkAuthorityWith]⟩
  | some X =>
    have keeps : signs (checkAuthorityWith ops getActive recurse s (some X)).2 = signed ∧
        ApprovalsCount signed preApproved ops getActive
          (checkAuthorityWith ops getActive recurse s (some X)).2 := by
      dsimp only [checkAuthorityWith]
      obtain ⟨s₁, signs₁, same, ⟨eq, -⟩ | ⟨t, -, -, -, eq⟩⟩ := checkKeyAuths_cases lawful
        X.weightThreshold (checkAccountAuths ops getActive recurse X.weightThreshold X.accountAuths)
        X.keyAuths 0 s
      · rw [eq]; exact ⟨signs₁.trans signs_eq, fun b mem => inv b (same ▸ mem)⟩
      · rw [eq]
        exact checkAccountAuths_keeps signed preApproved lawful recurse sound _ _ s₁
          (signs₁.trans signs_eq) (fun b mem => inv b (same ▸ mem))
    refine ⟨keeps.1, keeps.2, fun pass => ⟨X, rfl, ?_⟩⟩
    obtain ⟨-, reach⟩ := checkAuthorityWith_true lawful recurse grows s X _ (Prod.ext pass rfl)
    rw [signs_eq] at reach
    exact sat_of_weight signed preApproved getActive X _
      (fun a _ _ mem => keeps.2 a (of_decide_eq_true mem)) reach

/-- Soundness of check_authority: it passes only on a satisfied authority and keeps every approval counting. -/
theorem checkAuthority_sound (lawful : ops.Lawful signs) (n : Nat) :
    SoundCall signed preApproved ops signs getActive (checkAuthority ops getActive n) := by
  induction n with
  | zero =>
    exact checkAuthorityWith_sound signed preApproved lawful none (fun _ h => nomatch h)
      (fun _ h => nomatch h)
  | succ n ih =>
    exact checkAuthorityWith_sound signed preApproved lawful (some (checkAuthority ops getActive n))
      (fun _ h => Option.some.inj h ▸ fun s au => (checkAuthority_extends lawful n s au).2)
      (fun _ h => Option.some.inj h ▸ ih)

/-! ## The loops over the required authorities -/

/-- What a passing verification promises: other authorities satisfied, required active accounts pre-approved or with
a satisfied active or owner authority, required owner accounts owner-approved or with a satisfied owner authority. -/
def AuthoritiesSatisfied (getActive getOwner : AccountId → Option Authority)
    (ownerApprovals : FlatSet) (required : RequiredAuthorities) : Prop :=
  (∀ X ∈ required.other, Sat signed preApproved getActive X) ∧
  (∀ id ∈ required.active, preApproved id = true ∨
    (∃ Y, getActive id = some Y ∧ Sat signed preApproved getActive Y) ∨
    (∃ Y, getOwner id = some Y ∧ Sat signed preApproved getActive Y)) ∧
  (∀ id ∈ required.owner, id ∈ ownerApprovals ∨
    ∃ Y, getOwner id = some Y ∧ Sat signed preApproved getActive Y)

theorem AuthoritiesSatisfied.mono {getActive getOwner : AccountId → Option Authority} {ownerApprovals : FlatSet}
    {required required' : RequiredAuthorities}
    (sat : AuthoritiesSatisfied signed preApproved getActive getOwner ownerApprovals required)
    (active : ∀ id ∈ required'.active, id ∈ required.active) (owner : ∀ id ∈ required'.owner, id ∈ required.owner)
    (other : ∀ X ∈ required'.other, X ∈ required.other) :
    AuthoritiesSatisfied signed preApproved getActive getOwner ownerApprovals required' :=
  ⟨fun X mem => sat.1 X (other X mem), fun id mem => sat.2.1 id (active id mem),
    fun id mem => sat.2.2 id (owner id mem)⟩

variable {getOwner : AccountId → Option Authority}

private theorem checkOther_sound (lawful : ops.Lawful signs) (n : Nat) (others : List Authority)
    (s s' : σ) (ok : checkOther ops getActive n others s = .ok s') (signs_eq : signs s = signed)
    (inv : ApprovalsCount signed preApproved ops getActive s) :
    signs s' = signed ∧ ApprovalsCount signed preApproved ops getActive s' ∧
      ∀ X ∈ others, Sat signed preApproved getActive X := by
  induction others generalizing s with
  | nil => cases ok; exact ⟨signs_eq, inv, by simp⟩
  | cons X others ih =>
    obtain ⟨signs₁, inv₁, sat⟩ := checkAuthority_sound signed preApproved lawful n s (some X)
      signs_eq inv
    unfold checkOther at ok
    rcases h : checkAuthority ops getActive n s (some X) with ⟨_ | _, s₁⟩ <;>
      rw [h] at ok signs₁ inv₁ sat <;> dsimp only at ok signs₁ inv₁ sat
    · cases ok
    · obtain ⟨signs', inv', sats⟩ := ih s₁ ok signs₁ inv₁
      obtain ⟨_, hY, satX⟩ := sat rfl
      cases hY
      exact ⟨signs', inv', fun Y mem => (List.mem_cons.mp mem).elim (· ▸ satX) (sats Y)⟩

private theorem checkRequiredActive_sound (lawful : ops.Lawful signs) (n : Nat)
    (ids : List AccountId) (s s' : σ) (ok : checkRequiredActive ops getActive getOwner n ids s = .ok s')
    (signs_eq : signs s = signed) (inv : ApprovalsCount signed preApproved ops getActive s) :
    signs s' = signed ∧ ApprovalsCount signed preApproved ops getActive s' ∧
      ∀ id ∈ ids, preApproved id = true ∨
        (∃ Y, getActive id = some Y ∧ Sat signed preApproved getActive Y) ∨
        (∃ Y, getOwner id = some Y ∧ Sat signed preApproved getActive Y) := by
  induction ids generalizing s with
  | nil => cases ok; exact ⟨signs_eq, inv, by simp⟩
  | cons id ids ih =>
    unfold checkRequiredActive checkAuthorityId at ok
    suffices this : ∃ s₁, checkRequiredActive ops getActive getOwner n ids s₁ = .ok s' ∧
        signs s₁ = signed ∧ ApprovalsCount signed preApproved ops getActive s₁ ∧
        (preApproved id = true ∨
          (∃ Y, getActive id = some Y ∧ Sat signed preApproved getActive Y) ∨
          (∃ Y, getOwner id = some Y ∧ Sat signed preApproved getActive Y)) by
      obtain ⟨s₁, ok₁, signs₁, inv₁, here⟩ := this
      obtain ⟨signs', inv', rest⟩ := ih s₁ ok₁ signs₁ inv₁
      exact ⟨signs', inv', fun j mem => (List.mem_cons.mp mem).elim (· ▸ here) (rest j)⟩
    split_ifs at ok with approved
    · exact ⟨s, ok, signs_eq, inv, (inv id approved).imp (fun h => h) Or.inl⟩
    · obtain ⟨signs₁, inv₁, sat₁⟩ := checkAuthority_sound signed preApproved lawful n s
        (getActive id) signs_eq inv
      rcases h : checkAuthority ops getActive n s (getActive id) with ⟨_ | _, s₁⟩ <;>
        rw [h] at ok signs₁ inv₁ sat₁ <;> dsimp only at ok signs₁ inv₁ sat₁
      · obtain ⟨signs₂, inv₂, sat₂⟩ := checkAuthority_sound signed preApproved lawful n s₁
          (getOwner id) signs₁ inv₁
        rcases h₂ : checkAuthority ops getActive n s₁ (getOwner id) with ⟨_ | _, s₂⟩ <;>
          rw [h₂] at ok signs₂ inv₂ sat₂ <;> dsimp only at ok signs₂ inv₂ sat₂
        · cases ok
        · exact ⟨s₂, ok, signs₂, inv₂, Or.inr (Or.inr (sat₂ rfl))⟩
      · exact ⟨s₁, ok, signs₁, inv₁, Or.inr (Or.inl (sat₁ rfl))⟩

private theorem checkRequiredOwner_sound (lawful : ops.Lawful signs) (n : Nat)
    (ownerApprovals : FlatSet) (ids : List AccountId) (s s' : σ)
    (ok : checkRequiredOwner ops getActive getOwner n ownerApprovals ids s = .ok s')
    (signs_eq : signs s = signed) (inv : ApprovalsCount signed preApproved ops getActive s) :
    ∀ id ∈ ids, id ∈ ownerApprovals ∨
      ∃ Y, getOwner id = some Y ∧ Sat signed preApproved getActive Y := by
  induction ids generalizing s with
  | nil => simp
  | cons id ids ih =>
    unfold checkRequiredOwner at ok
    intro j mem
    split_ifs at ok with approved
    · exact (List.mem_cons.mp mem).elim (· ▸ Or.inl approved) (ih s ok signs_eq inv j)
    · obtain ⟨signs₁, inv₁, sat₁⟩ := checkAuthority_sound signed preApproved lawful n s
        (getOwner id) signs_eq inv
      rcases h : checkAuthority ops getActive n s (getOwner id) with ⟨_ | _, s₁⟩ <;>
        rw [h] at ok signs₁ inv₁ sat₁ <;> dsimp only at ok signs₁ inv₁ sat₁
      · cases ok
      · exact (List.mem_cons.mp mem).elim (· ▸ Or.inr (sat₁ rfl)) (ih s₁ ok signs₁ inv₁ j)

end Approvals

/-! ## Soundness of the two verification paths -/

section Verify
variable {Op : Type}
  (operationGetRequiredAuthorities : Op → List AccountId × List AccountId × List Authority)
  (grapheneTempAccount grapheneMinerAccount : AccountId)

/-- The general path satisfies every required authority, pre-approving GRAPHENE_TEMP_ACCOUNT and both approval sets. -/
theorem verifyAuthority_sound (operations : List Op) (sigs : FlatSet)
    (getActive getOwner : AccountId → Option Authority) (maxRecursionDepth : Nat)
    (allowCommittee : Bool) (activeAprovals ownerApprovals : FlatSet)
    (ok : verifyAuthority operationGetRequiredAuthorities grapheneTempAccount grapheneMinerAccount
      operations sigs getActive getOwner maxRecursionDepth allowCommittee activeAprovals
      ownerApprovals = .ok ()) :
    AuthoritiesSatisfied (fun k => decide (k ∈ sigs))
      (fun a => decide (a = grapheneTempAccount ∨ a ∈ activeAprovals ∨ a ∈ ownerApprovals))
      getActive getOwner ownerApprovals
      (getRequiredAuthorities operationGetRequiredAuthorities operations) := by
  dsimp only [verifyAuthority] at ok
  split_ifs at ok
  obtain ⟨s₁, ok₁, ok⟩ := bind_eq_ok.mp ok
  obtain ⟨s₂, ok₂, ok⟩ := bind_eq_ok.mp ok
  obtain ⟨s₃, ok₃, -⟩ := bind_eq_ok.mp ok
  have inv₀ : ApprovalsCount (fun k => decide (k ∈ sigs))
      (fun a => decide (a = grapheneTempAccount ∨ a ∈ activeAprovals ∨ a ∈ ownerApprovals))
      SignState.ops getActive (initialState grapheneTempAccount sigs activeAprovals ownerApprovals) :=
    fun a mem => Or.inl (by simpa [SignState.ops] using mem)
  obtain ⟨signs₁, inv₁, others⟩ := checkOther_sound _ _ SignState.lawful _ _ _ _ ok₁
    (signs_initialState _ _ _ _) inv₀
  obtain ⟨signs₂, inv₂, actives⟩ := checkRequiredActive_sound _ _ SignState.lawful _ _ _ _ ok₂
    signs₁ inv₁
  exact ⟨others, actives, checkRequiredOwner_sound _ _ SignState.lawful _ _ _ _ _ ok₃ signs₂ inv₂⟩

/-- The single-key path satisfies every required authority with its one key. -/
theorem verifyAuthority1_sound (operations : List Op) (k : PublicKey)
    (getActive getOwner : AccountId → Option Authority) (maxRecursionDepth : Nat)
    (ok : verifyAuthority1 operationGetRequiredAuthorities grapheneTempAccount operations k
      getActive getOwner maxRecursionDepth = .ok ()) :
    AuthoritiesSatisfied (fun k' => decide (k' = k)) (fun a => decide (a = grapheneTempAccount))
      getActive getOwner FlatSet.empty
      (getRequiredAuthorities operationGetRequiredAuthorities operations) := by
  dsimp only [verifyAuthority1] at ok
  obtain ⟨s₁, ok₁, ok⟩ := bind_eq_ok.mp ok
  obtain ⟨s₂, ok₂, ok⟩ := bind_eq_ok.mp ok
  obtain ⟨s₃, ok₃, -⟩ := bind_eq_ok.mp ok
  have inv₀ : ApprovalsCount (fun k' => decide (k' = k)) (fun a => decide (a = grapheneTempAccount))
      SignState1.ops getActive (SignState1.init grapheneTempAccount k) :=
    fun a mem => Or.inl (by simpa [SignState1.ops, SignState1.init] using mem)
  obtain ⟨signs₁, inv₁, others⟩ := checkOther_sound _ _ SignState1.lawful _ _ _ _ ok₁ rfl inv₀
  obtain ⟨signs₂, inv₂, actives⟩ := checkRequiredActive_sound _ _ SignState1.lawful _ _ _ _ ok₂
    signs₁ inv₁
  rw [checkRequiredOwner1_eq] at ok₃
  exact ⟨others, actives, checkRequiredOwner_sound _ _ SignState1.lawful _ _ _ _ _ ok₃ signs₂ inv₂⟩

theorem signedTransactionVerifyAuthority_sound (operations : List Op) (sigKeys : FlatSet)
    (getActive getOwner : AccountId → Option Authority) (maxRecursion : Nat)
    (ok : signedTransactionVerifyAuthority operationGetRequiredAuthorities grapheneTempAccount
        grapheneMinerAccount operations sigKeys getActive getOwner maxRecursion = .ok ()) :
    AuthoritiesSatisfied (fun k => decide (k ∈ sigKeys)) (fun a => decide (a = grapheneTempAccount))
      getActive getOwner FlatSet.empty (getRequiredAuthorities operationGetRequiredAuthorities operations) := by
  unfold signedTransactionVerifyAuthority at ok
  split at ok
  · rename_i k one
    have signed : (fun k' => decide (k' ∈ sigKeys)) = fun k' => decide (k' = k) := by
      funext k'; simp [← FlatSet.mem_elems, one]
    rw [signed]
    exact verifyAuthority1_sound operationGetRequiredAuthorities grapheneTempAccount operations k
      getActive getOwner maxRecursion ok
  · have pre : (fun a => decide (a = grapheneTempAccount ∨ a ∈ FlatSet.empty ∨ a ∈ FlatSet.empty)) =
        fun a => decide (a = grapheneTempAccount) := by
      funext a; simp
    rw [← pre]
    exact verifyAuthority_sound operationGetRequiredAuthorities grapheneTempAccount
      grapheneMinerAccount operations sigKeys getActive getOwner maxRecursion false FlatSet.empty
      FlatSet.empty ok

/-- Authority soundness: when signed_transaction::verify_authority passes, or verify_authority with any approvals,
every required authority is satisfied, `Sat` being the least fixpoint of the threshold rule. -/
theorem verifyAuthority_authoritiesSatisfied (operations : List Op) (sigKeys : FlatSet)
    (getActive getOwner : AccountId → Option Authority) (maxRecursion : Nat)
    (allowCommittee : Bool) (activeAprovals ownerApprovals : FlatSet) :
    (signedTransactionVerifyAuthority operationGetRequiredAuthorities grapheneTempAccount
        grapheneMinerAccount operations sigKeys getActive getOwner maxRecursion = .ok () →
      AuthoritiesSatisfied (fun k => decide (k ∈ sigKeys)) (fun a => decide (a = grapheneTempAccount))
        getActive getOwner FlatSet.empty
        (getRequiredAuthorities operationGetRequiredAuthorities operations)) ∧
    (verifyAuthority operationGetRequiredAuthorities grapheneTempAccount grapheneMinerAccount
        operations sigKeys getActive getOwner maxRecursion allowCommittee activeAprovals
        ownerApprovals = .ok () →
      AuthoritiesSatisfied (fun k => decide (k ∈ sigKeys))
        (fun a => decide (a = grapheneTempAccount ∨ a ∈ activeAprovals ∨ a ∈ ownerApprovals))
        getActive getOwner ownerApprovals
        (getRequiredAuthorities operationGetRequiredAuthorities operations)) :=
  ⟨signedTransactionVerifyAuthority_sound operationGetRequiredAuthorities grapheneTempAccount
    grapheneMinerAccount operations sigKeys getActive getOwner maxRecursion,
    verifyAuthority_sound operationGetRequiredAuthorities grapheneTempAccount grapheneMinerAccount operations
      sigKeys getActive getOwner maxRecursion allowCommittee activeAprovals ownerApprovals⟩

/-- When signed_transaction::verify_authority passes, what each operation requires on its own is satisfied. -/
theorem signedTransactionVerifyAuthority_sound_operations (operations : List Op) (sigKeys : FlatSet)
    (getActive getOwner : AccountId → Option Authority) (maxRecursion : Nat)
    (ok : signedTransactionVerifyAuthority operationGetRequiredAuthorities grapheneTempAccount
        grapheneMinerAccount operations sigKeys getActive getOwner maxRecursion = .ok ()) :
    ∀ op ∈ operations, AuthoritiesSatisfied (fun k => decide (k ∈ sigKeys)) (fun a => decide (a = grapheneTempAccount))
      getActive getOwner FlatSet.empty (getRequiredAuthorities operationGetRequiredAuthorities [op]) := by
  intro op mem
  obtain ⟨active, owner, other⟩ := getRequiredAuthorities_spec operationGetRequiredAuthorities operations
  obtain ⟨active₁, owner₁, other₁⟩ := getRequiredAuthorities_spec operationGetRequiredAuthorities [op]
  refine (signedTransactionVerifyAuthority_sound operationGetRequiredAuthorities grapheneTempAccount
    grapheneMinerAccount operations sigKeys getActive getOwner maxRecursion ok).mono _ _
    (fun id required => ?_) (fun id required => ?_) (fun X required => ?_)
  · obtain ⟨_, same, required⟩ := (active₁ id).1 required
    rw [List.mem_singleton.1 same] at required
    exact (active id).2 ⟨op, mem, required⟩
  · obtain ⟨_, same, required⟩ := (owner₁ id).1 required
    rw [List.mem_singleton.1 same] at required
    exact (owner id).2 ⟨op, mem, required⟩
  · rw [other₁, List.flatMap_singleton] at required
    rw [other, List.mem_flatMap]
    exact ⟨op, mem, required⟩

end Verify

end FffChain.Authority.Soundness
