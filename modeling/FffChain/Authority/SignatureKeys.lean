/- FffChain/Authority/SignatureKeys
   source: libraries/chain/protocol/transaction.cpp, lines 57-69, 379-391
   digest: transaction::validate refuses a transaction without operations and
   names, zero-based, the first operation that operation_validate refuses.
   signed_transaction::get_signature_keys inserts the key recovered from each
   signature into a flat_set and throws at the first key already there: it
   answers exactly when no two signatures recover one key, and then with one
   key per signature. -/

import FffChain.Authority.Types

set_option autoImplicit false
set_option relaxedAutoImplicit false

namespace FffChain.Authority.SignatureKeys

open FffChain.Authority.Types

/-! ## transaction::validate -/

/-- The exceptions of transaction::validate: trx_must_have_at_least_one_op, and an operation_validate failure
with the operation's zero-based index. -/
inductive ValidateError (ε : Type) where
  | trxMustHaveAtLeastOneOp
  | operationValidate (index : Nat) (error : ε)
deriving DecidableEq, Repr

section Validate

variable {Op ε : Type} (operationValidate : Op → Except ε Unit)

/-- The loop of transaction::validate: index counts the operations validated
so far, and is the index reported when operation_validate throws. -/
def validateLoop : Nat → List Op → Except (ValidateError ε) Unit
  | _, [] => .ok ()
  | index, op :: rest =>
    match operationValidate op with
    | .ok () => validateLoop (index + 1) rest
    | .error e => .error (.operationValidate index e)

/-- transaction::validate; operation_validate, which is not in the sources, is
a parameter. -/
def validate (operations : List Op) : Except (ValidateError ε) Unit :=
  if operations.length = 0 then .error .trxMustHaveAtLeastOneOp
  else validateLoop operationValidate 0 operations

theorem validateLoop_eq_error (index : Nat) (operations : List Op) (i : Nat) (e : ε) :
    validateLoop operationValidate index operations = .error (.operationValidate i e) ↔
      ∃ pre op post, operations = pre ++ op :: post ∧ (∀ o ∈ pre, operationValidate o = .ok ()) ∧
        operationValidate op = .error e ∧ i = index + pre.length := by
  induction operations generalizing index with
  | nil => simp [validateLoop]
  | cons op rest ih =>
    unfold validateLoop
    split
    · next passes =>
      rw [ih]
      constructor
      · rintro ⟨pre, bad, post, rfl, before, fails, rfl⟩
        exact ⟨op :: pre, bad, post, rfl, by simpa [passes] using before, fails, by simp; omega⟩
      · rintro ⟨_ | ⟨first, pre⟩, bad, post, split, before, fails, rfl⟩
        · obtain ⟨rfl, -⟩ := List.cons.inj split
          rw [passes] at fails; cases fails
        · obtain ⟨rfl, rfl⟩ := List.cons.inj split
          exact ⟨pre, bad, post, rfl, fun o mem => before o (.tail _ mem), fails, by simp; omega⟩
    · next e' fails =>
      simp only [Except.error.injEq, ValidateError.operationValidate.injEq]
      constructor
      · rintro ⟨rfl, rfl⟩
        exact ⟨[], op, rest, rfl, by simp, fails, rfl⟩
      · rintro ⟨_ | ⟨first, pre⟩, bad, post, split, before, fails', rfl⟩
        · obtain ⟨rfl, -⟩ := List.cons.inj split
          rw [fails] at fails'
          exact ⟨rfl, Except.error.inj fails'⟩
        · obtain ⟨rfl, -⟩ := List.cons.inj split
          have := before op (.head _)
          rw [fails] at this; cases this

theorem validateLoop_eq_ok (index : Nat) (operations : List Op) :
    validateLoop operationValidate index operations = .ok () ↔ ∀ op ∈ operations, operationValidate op = .ok () := by
  induction operations generalizing index with
  | nil => simp [validateLoop]
  | cons op rest ih =>
    unfold validateLoop
    split
    · next passes => simp [ih, passes]
    · next e' fails => simp [fails]

theorem validateLoop_ne_noOperations (index : Nat) (operations : List Op) :
    validateLoop operationValidate index operations ≠ .error .trxMustHaveAtLeastOneOp := by
  induction operations generalizing index with
  | nil => simp [validateLoop]
  | cons op rest ih => unfold validateLoop; split <;> simp [ih]

/-- transaction::validate refuses a transaction without operations, reports the first refused operation with its
index, and passes exactly when every operation passes. -/
theorem validate_eq (operations : List Op) (i : Nat) (e : ε) :
    (validate operationValidate operations = .error .trxMustHaveAtLeastOneOp ↔ operations = []) ∧
    (validate operationValidate operations = .error (.operationValidate i e) ↔
      ∃ pre op post, operations = pre ++ op :: post ∧ (∀ o ∈ pre, operationValidate o = .ok ()) ∧
        operationValidate op = .error e ∧ i = pre.length) ∧
    (validate operationValidate operations = .ok () ↔
      operations ≠ [] ∧ ∀ op ∈ operations, operationValidate op = .ok ()) := by
  cases operations with
  | nil => simp [validate]
  | cons op rest =>
    simp only [validate, List.length_cons, Nat.add_one_ne_zero, if_false, validateLoop_eq_error, Nat.zero_add,
      validateLoop_eq_ok, ne_eq, reduceCtorEq, not_false_eq_true, true_and, iff_false, and_true]
    exact validateLoop_ne_noOperations operationValidate 0 _

end Validate

/-! ## signed_transaction::get_signature_keys -/

/-- The exception of get_signature_keys: tx_duplicate_sig, "Duplicate
Signature detected". -/
inductive SignatureError where
  | txDuplicateSig
deriving DecidableEq, Repr

section Keys

variable {Signature : Type} (recoverKey : Signature → PublicKey)

/-- The loop of get_signature_keys: the key each signature recovers goes into
the flat_set, and an insert that finds it already there throws. -/
def getSignatureKeysLoop : List Signature → FlatSet → Except SignatureError FlatSet
  | [], result => .ok result
  | sig :: rest, result =>
    if recoverKey sig ∈ result then .error .txDuplicateSig
    else getSignatureKeysLoop rest (result.insert (recoverKey sig))

/-- signed_transaction::get_signature_keys; recoverKey stands for
fc::ecc::public_key(sig, sig_digest(chain_id)), which is not in the sources. -/
def getSignatureKeys (signatures : List Signature) : Except SignatureError FlatSet :=
  getSignatureKeysLoop recoverKey signatures FlatSet.empty

theorem getSignatureKeysLoop_eq (signatures : List Signature) (result : FlatSet) :
    getSignatureKeysLoop recoverKey signatures result =
      if (signatures.map recoverKey).Nodup ∧ ∀ k ∈ signatures.map recoverKey, k ∉ result
      then .ok ((signatures.map recoverKey).foldl FlatSet.insert result) else .error .txDuplicateSig := by
  induction signatures generalizing result with
  | nil => simp [getSignatureKeysLoop]
  | cons sig rest ih =>
    rw [getSignatureKeysLoop, ih]
    by_cases taken : recoverKey sig ∈ result
    · simp [taken]
    · have same : ((rest.map recoverKey).Nodup ∧ ∀ k ∈ rest.map recoverKey, k ∉ result.insert (recoverKey sig)) ↔
          ((sig :: rest).map recoverKey).Nodup ∧ ∀ k ∈ (sig :: rest).map recoverKey, k ∉ result := by
        simp only [List.map_cons, List.nodup_cons, List.mem_cons, FlatSet.mem_insert, forall_eq_or_imp, not_or]
        constructor
        · rintro ⟨nodup, fresh⟩
          exact ⟨⟨fun mem => (fresh _ mem).1 rfl, nodup⟩, taken, fun k mem => (fresh k mem).2⟩
        · rintro ⟨⟨notLater, nodup⟩, -, fresh⟩
          exact ⟨nodup, fun k mem => ⟨fun h => notLater (h ▸ mem), fresh k mem⟩⟩
      simp only [taken, if_false, same, List.map_cons, List.foldl_cons]

theorem length_ofList_of_nodup {l : List Nat} (nodup : l.Nodup) : (FlatSet.ofList l).elems.length = l.length :=
  ((List.perm_ext_iff_of_nodup (FlatSet.ofList l).sorted.nodup nodup).2 fun _ => FlatSet.mem_ofList).length_eq

/-- get_signature_keys throws tx_duplicate_sig exactly when two signatures recover one key, and otherwise
answers with one key per signature. -/
theorem getSignatureKeys_eq (signatures : List Signature) :
    getSignatureKeys recoverKey signatures =
        (if (signatures.map recoverKey).Nodup then .ok (FlatSet.ofList (signatures.map recoverKey))
        else .error .txDuplicateSig) ∧
      ((signatures.map recoverKey).Nodup → (FlatSet.ofList (signatures.map recoverKey)).elems.length = signatures.length) := by
  refine ⟨?_, fun nodup => by rw [length_ofList_of_nodup nodup, List.length_map]⟩
  rw [getSignatureKeys, getSignatureKeysLoop_eq]
  simp [FlatSet.ofList]

end Keys

end FffChain.Authority.SignatureKeys
