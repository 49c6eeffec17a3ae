/- FffChain/Authority/Transaction
   source: libraries/chain/protocol/transaction.cpp, lines 287-465
   digest: verify_authority, its single-key twin verify_authority1, the
   dispatch in signed_transaction::verify_authority, and the wallet-side
   get_required_signatures and minimize_required_signatures. -/

import FffChain.Authority.Check

set_option autoImplicit false
set_option relaxedAutoImplicit false

namespace FffChain.Authority.Transaction

open FffChain.Authority.Types FffChain.Authority.Check

/-- The exceptions of the authority checks, with the datum each names; FC_CAPTURE_AND_RETHROW keeps the kind. -/
inductive Exception where
  | invalidCommitteeApproval
  | txMissingOtherAuth (auth : Authority)
  | txMissingActiveAuth (id : AccountId)
  | txMissingOwnerAuth (id : AccountId)
  | txIrrelevantSig
deriving DecidableEq, Repr

theorem bind_eq_ok {α β : Type} {x : Except Exception α} {f : α → Except Exception β} {b : β} :
    x >>= f = .ok b ↔ ∃ a, x = .ok a ∧ f a = .ok b := by
  cases x <;> simp [bind, Except.bind]

/-! ## The three loops over the required authorities -/

section Loops
variable {σ : Type} (ops : SignStateOps σ) (getActive getOwner : AccountId → Option Authority)
  (maxRecursion : Nat)

/-- The loop over `other`: each authority must pass check_authority. -/
def checkOther : List Authority → σ → Except Exception σ
  | [], s => .ok s
  | auth :: rest, s =>
    match checkAuthority ops getActive maxRecursion s (some auth) with
    | (true, s) => checkOther rest s
    | (false, _) => .error (.txMissingOtherAuth auth)

/-- The loop over required_active: `s.check_authority(id) ||
s.check_authority(get_owner(id))`. -/
def checkRequiredActive : List AccountId → σ → Except Exception σ
  | [], s => .ok s
  | id :: rest, s =>
    match checkAuthorityId ops getActive maxRecursion s id with
    | (true, s) => checkRequiredActive rest s
    | (false, s) =>
      match checkAuthority ops getActive maxRecursion s (getOwner id) with
      | (true, s) => checkRequiredActive rest s
      | (false, _) => .error (.txMissingActiveAuth id)

/-- The loop over required_owner of verify_authority: an owner approval, or the
owner authority. -/
def checkRequiredOwner (ownerApprovals : FlatSet) : List AccountId → σ → Except Exception σ
  | [], s => .ok s
  | id :: rest, s =>
    if id ∈ ownerApprovals then checkRequiredOwner ownerApprovals rest s
    else match checkAuthority ops getActive maxRecursion s (getOwner id) with
      | (true, s) => checkRequiredOwner ownerApprovals rest s
      | (false, _) => .error (.txMissingOwnerAuth id)

/-- The loop over required_owner of verify_authority1, which takes no owner
approvals: the owner authority only. -/
def checkRequiredOwner1 : List AccountId → σ → Except Exception σ
  | [], s => .ok s
  | id :: rest, s =>
    match checkAuthority ops getActive maxRecursion s (getOwner id) with
    | (true, s) => checkRequiredOwner1 rest s
    | (false, _) => .error (.txMissingOwnerAuth id)

theorem checkRequiredOwner1_eq (ids : List AccountId) (s : σ) :
    checkRequiredOwner1 ops getActive getOwner maxRecursion ids s =
      checkRequiredOwner ops getActive getOwner maxRecursion FlatSet.empty ids s := by
  induction ids generalizing s with
  | nil => rfl
  | cons id ids ih =>
    simp only [checkRequiredOwner1, checkRequiredOwner, FlatSet.not_mem_empty, if_false]
    split <;> simp_all

end Loops

/-! ## Verification -/

section Verify
variable {Op : Type}
  (operationGetRequiredAuthorities : Op → List AccountId × List AccountId × List Authority)
  (grapheneTempAccount grapheneMinerAccount : AccountId)

/-- The sign_state verify_authority starts from: the keys of `sigs`, none used,
and approved_by holding GRAPHENE_TEMP_ACCOUNT and the two approval sets. -/
def initialState (sigs activeAprovals ownerApprovals : FlatSet) : SignState :=
  { SignState.init grapheneTempAccount sigs with
    approvedBy := (activeAprovals.elems ++ ownerApprovals.elems).foldl FlatSet.insert
      (SignState.init grapheneTempAccount sigs).approvedBy }

@[simp] theorem signs_initialState (sigs activeAprovals ownerApprovals : FlatSet) :
    SignState.signs (initialState grapheneTempAccount sigs activeAprovals ownerApprovals) =
      fun k => decide (k ∈ sigs) := by
  funext k; simp [SignState.signs, initialState, SignState.init]

@[simp] theorem mem_initialState_approvedBy (sigs activeAprovals ownerApprovals : FlatSet)
    (a : AccountId) :
    a ∈ (initialState grapheneTempAccount sigs activeAprovals ownerApprovals).approvedBy ↔
      a = grapheneTempAccount ∨ a ∈ activeAprovals ∨ a ∈ ownerApprovals := by
  simp only [initialState, SignState.init, FlatSet.mem_foldl_insert, List.mem_append,
    FlatSet.mem_elems, FlatSet.mem_insert, FlatSet.not_mem_empty, or_false]
  tauto

/-- verify_authority (lines 287-339). -/
def verifyAuthority (operations : List Op) (sigs : FlatSet)
    (getActive getOwner : AccountId → Option Authority) (maxRecursionDepth : Nat)
    (allowCommittee : Bool) (activeAprovals ownerApprovals : FlatSet) : Except Exception Unit :=
  let required := getRequiredAuthorities operationGetRequiredAuthorities operations
  if !allowCommittee && grapheneMinerAccount ∈ required.active then
    .error .invalidCommitteeApproval
  else
    checkOther SignState.ops getActive maxRecursionDepth required.other
      (initialState grapheneTempAccount sigs activeAprovals ownerApprovals) >>= fun s =>
    checkRequiredActive SignState.ops getActive getOwner maxRecursionDepth
      required.active.elems s >>= fun s =>
    checkRequiredOwner SignState.ops getActive getOwner maxRecursionDepth ownerApprovals
      required.owner.elems s >>= fun s =>
    if (SignState.removeUnusedSignatures s).1 then .error .txIrrelevantSig else .ok ()

/-- verify_authority1 (lines 341-377): one key, no committee check, no owner
approvals, and no check for unused signatures. -/
def verifyAuthority1 (operations : List Op) (sigs : PublicKey)
    (getActive getOwner : AccountId → Option Authority) (maxRecursionDepth : Nat) :
    Except Exception Unit :=
  let required := getRequiredAuthorities operationGetRequiredAuthorities operations
  checkOther SignState1.ops getActive maxRecursionDepth required.other
    (SignState1.init grapheneTempAccount sigs) >>= fun s =>
  checkRequiredActive SignState1.ops getActive getOwner maxRecursionDepth
    required.active.elems s >>= fun s =>
  checkRequiredOwner1 SignState1.ops getActive getOwner maxRecursionDepth
    required.owner.elems s >>= fun _ =>
  .ok ()

/-- signed_transaction::verify_authority (lines 454-465): verify_authority1 for exactly one key, else
verify_authority with no committee operations and no approvals. -/
def signedTransactionVerifyAuthority (operations : List Op) (sigKeys : FlatSet)
    (getActive getOwner : AccountId → Option Authority) (maxRecursion : Nat) :
    Except Exception Unit :=
  match sigKeys.elems with
  | [k] => verifyAuthority1 operationGetRequiredAuthorities grapheneTempAccount operations k
      getActive getOwner maxRecursion
  | _ => verifyAuthority operationGetRequiredAuthorities grapheneTempAccount grapheneMinerAccount
      operations sigKeys getActive getOwner maxRecursion false FlatSet.empty FlatSet.empty

/-- signed_transaction::get_required_signatures (lines 393-425) from the recovered `signatureKeys`: the checks run
for their marks only (others, owners, actives), and the looked-up available keys are returned. -/
def getRequiredSignatures (operations : List Op) (signatureKeys availableKeys : FlatSet)
    (getActive getOwner : AccountId → Option Authority) (maxRecursionDepth : Nat) : FlatSet :=
  let required := getRequiredAuthorities operationGetRequiredAuthorities operations
  let s : SignState := { SignState.init grapheneTempAccount signatureKeys with availableKeys }
  let s := required.other.foldl
    (fun s auth => (checkAuthority SignState.ops getActive maxRecursionDepth s (some auth)).2) s
  let s := required.owner.elems.foldl
    (fun s owner => (checkAuthority SignState.ops getActive maxRecursionDepth s
      (getOwner owner)).2) s
  let s := required.active.elems.foldl
    (fun s active => (checkAuthorityId SignState.ops getActive maxRecursionDepth s active).2) s
  let s := (SignState.removeUnusedSignatures s).2
  s.providedSignatures.filter (· ∈ availableKeys)

/-- The loop of minimize_required_signatures: drop each key while verify_authority still passes; a
missing-authority exception puts it back, any other escapes. -/
def minimizeLoop (operations : List Op) (getActive getOwner : AccountId → Option Authority)
    (maxRecursion : Nat) : List PublicKey → FlatSet → Except Exception FlatSet
  | [], result => .ok result
  | k :: rest, result =>
    match verifyAuthority operationGetRequiredAuthorities grapheneTempAccount grapheneMinerAccount
        operations (result.erase k) getActive getOwner maxRecursion false FlatSet.empty
        FlatSet.empty with
    | .ok () => minimizeLoop operations getActive getOwner maxRecursion rest (result.erase k)
    | .error (.txMissingOwnerAuth _) | .error (.txMissingActiveAuth _)
    | .error (.txMissingOtherAuth _) =>
      minimizeLoop operations getActive getOwner maxRecursion rest ((result.erase k).insert k)
    | .error e => .error e

/-- signed_transaction::minimize_required_signatures (lines 427-452). -/
def minimizeRequiredSignatures (operations : List Op) (signatureKeys availableKeys : FlatSet)
    (getActive getOwner : AccountId → Option Authority) (maxRecursion : Nat) :
    Except Exception FlatSet :=
  let s := getRequiredSignatures operationGetRequiredAuthorities grapheneTempAccount operations
    signatureKeys availableKeys getActive getOwner maxRecursion
  minimizeLoop operationGetRequiredAuthorities grapheneTempAccount grapheneMinerAccount operations
    getActive getOwner maxRecursion s.elems s

end Verify

end FffChain.Authority.Transaction
