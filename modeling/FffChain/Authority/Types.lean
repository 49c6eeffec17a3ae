/- FffChain/Authority/Types
   source: libraries/chain/protocol/transaction.cpp, protocol/operations.hpp
   digest: Ids, keys, flat sets, authorities and the required-authority sets of
   a list of operations. -/

import Mathlib

set_option autoImplicit false
set_option relaxedAutoImplicit false

namespace FffChain.Authority.Types

/-- account_id_type: the instance number of an account object. -/
abbrev AccountId := Nat

/-- public_key_type, read as its compressed encoding taken big-endian, so that
the order of the numbers is the order of the key data. -/
abbrev PublicKey := Nat

/-- A boost::container::flat_set (or std::set) of ids or keys: a strictly
ascending list, so iteration is in ascending order and there are no repeats. -/
structure FlatSet where
  elems : List Nat
  sorted : elems.Sorted (· < ·)
deriving DecidableEq

namespace FlatSet

instance : Membership Nat FlatSet := ⟨fun s a => a ∈ s.elems⟩

instance (a : Nat) (s : FlatSet) : Decidable (a ∈ s) :=
  inferInstanceAs (Decidable (a ∈ s.elems))

@[simp] theorem mem_elems {a : Nat} {s : FlatSet} : a ∈ s.elems ↔ a ∈ s := Iff.rfl

/-- A flat set is determined by its members: the ascending list of them is unique. -/
@[ext] theorem ext {s t : FlatSet} (h : ∀ x, x ∈ s ↔ x ∈ t) : s = t := by
  obtain ⟨l₁, sorted₁⟩ := s
  obtain ⟨l₂, sorted₂⟩ := t
  congr
  exact List.eq_of_perm_of_sorted
    ((List.perm_ext_iff_of_nodup sorted₁.nodup sorted₂.nodup).mpr h) sorted₁ sorted₂

/-- The empty set. -/
def empty : FlatSet := ⟨[], List.sorted_nil⟩

/-- Insertion into an ascending list, keeping it ascending. -/
def insertSorted (a : Nat) : List Nat → List Nat
  | [] => [a]
  | b :: l => if a < b then a :: b :: l else if a = b then b :: l else b :: insertSorted a l

theorem mem_insertSorted (a x : Nat) (l : List Nat) :
    x ∈ insertSorted a l ↔ x = a ∨ x ∈ l := by
  induction l with
  | nil => simp [insertSorted]
  | cons b l ih =>
    unfold insertSorted
    split_ifs with hlt heq
    · simp
    · subst heq; simp
    · simp only [List.mem_cons, ih]; tauto

theorem sorted_insertSorted (a : Nat) {l : List Nat} (sorted : l.Sorted (· < ·)) :
    (insertSorted a l).Sorted (· < ·) := by
  induction l with
  | nil => simp [insertSorted]
  | cons b l ih =>
    have tail := List.sorted_cons.mp sorted
    unfold insertSorted
    split_ifs with hlt heq
    · exact List.sorted_cons.mpr ⟨fun x hx => by
        rcases List.mem_cons.mp hx with rfl | hx
        · exact hlt
        · exact hlt.trans (tail.1 x hx), sorted⟩
    · exact sorted
    · refine List.sorted_cons.mpr ⟨fun x hx => ?_, ih tail.2⟩
      rcases (mem_insertSorted a x l).mp hx with rfl | hx
      · omega
      · exact tail.1 x hx

/-- flat_set::insert. -/
def insert (s : FlatSet) (a : Nat) : FlatSet :=
  ⟨insertSorted a s.elems, sorted_insertSorted a s.sorted⟩

/-- flat_set::erase. -/
def erase (s : FlatSet) (a : Nat) : FlatSet :=
  ⟨s.elems.filter (· ≠ a), s.sorted.filter _⟩

/-- The elements of `s` that satisfy `p`, in order. -/
def filter (s : FlatSet) (p : Nat → Bool) : FlatSet :=
  ⟨s.elems.filter p, s.sorted.filter _⟩

/-- A flat_set built by inserting the elements of a list one after another. -/
def ofList (l : List Nat) : FlatSet := l.foldl insert empty

@[simp] theorem not_mem_empty (a : Nat) : a ∉ empty := List.not_mem_nil a

@[simp] theorem elems_empty : empty.elems = [] := rfl

@[simp] theorem elems_insert_empty (a : Nat) : (empty.insert a).elems = [a] := rfl

@[simp] theorem filter_empty (p : Nat → Bool) : empty.filter p = empty := rfl

@[simp] theorem mem_insert {s : FlatSet} {a x : Nat} : x ∈ s.insert a ↔ x = a ∨ x ∈ s :=
  mem_insertSorted a x s.elems

@[simp] theorem mem_erase {s : FlatSet} {a x : Nat} : x ∈ s.erase a ↔ x ∈ s ∧ x ≠ a := by
  simp [erase, ← mem_elems]

@[simp] theorem mem_filter {s : FlatSet} {p : Nat → Bool} {x : Nat} :
    x ∈ s.filter p ↔ x ∈ s ∧ p x = true := by
  simp [filter, ← mem_elems]

theorem mem_foldl_insert (l : List Nat) (s : FlatSet) (x : Nat) :
    x ∈ l.foldl insert s ↔ x ∈ l ∨ x ∈ s := by
  induction l generalizing s with
  | nil => simp
  | cons a l ih => simp only [List.foldl_cons, ih, mem_insert, List.mem_cons]; tauto

@[simp] theorem mem_ofList {l : List Nat} {x : Nat} : x ∈ ofList l ↔ x ∈ l := by
  simp [ofList, mem_foldl_insert]

theorem erase_insert {s : FlatSet} {a : Nat} (mem : a ∈ s) : (s.erase a).insert a = s := by
  ext x
  by_cases h : x = a
  · subst h; simp [mem]
  · simp [h]

/-- Inclusion of flat sets. -/
instance : HasSubset FlatSet := ⟨fun s t => ∀ x, x ∈ s → x ∈ t⟩

theorem subset_def {s t : FlatSet} : s ⊆ t ↔ ∀ x, x ∈ s → x ∈ t := Iff.rfl

theorem subset_insert (s : FlatSet) (a : Nat) : s ⊆ s.insert a :=
  fun _ hx => mem_insert.mpr (Or.inr hx)

theorem subset_refl (s : FlatSet) : s ⊆ s := fun _ hx => hx

theorem subset_trans {s t u : FlatSet} (st : s ⊆ t) (tu : t ⊆ u) : s ⊆ u :=
  fun x hx => tu x (st x hx)

end FlatSet

/-- Modelled from the spec (its header is not in the sources): weight_threshold, account_auths and key_auths,
each list in the order the code iterates it. -/
structure Authority where
  weightThreshold : Nat
  accountAuths : List (AccountId × Nat)
  keyAuths : List (PublicKey × Nat)
deriving DecidableEq, Repr

/-- The three out-parameters of operation_get_required_authorities: the active
and owner flat_sets and the vector of other authorities. -/
structure RequiredAuthorities where
  active : FlatSet
  owner : FlatSet
  other : List Authority

section
variable {Op : Type}
  (operationGetRequiredAuthorities : Op → List AccountId × List AccountId × List Authority)

/-- transaction::get_required_authorities: each operation inserts its accounts into the two flat_sets and appends
its other authorities; the per-operation table is not in the sources. -/
def getRequiredAuthorities (ops : List Op) : RequiredAuthorities :=
  ops.foldl (fun r op =>
    let (active, owner, other) := operationGetRequiredAuthorities op
    ⟨active.foldl FlatSet.insert r.active, owner.foldl FlatSet.insert r.owner, r.other ++ other⟩)
    ⟨FlatSet.empty, FlatSet.empty, []⟩

theorem getRequiredAuthorities_append (ops : List Op) (op : Op) :
    getRequiredAuthorities operationGetRequiredAuthorities (ops ++ [op]) =
      ⟨(operationGetRequiredAuthorities op).1.foldl FlatSet.insert
          (getRequiredAuthorities operationGetRequiredAuthorities ops).active,
        (operationGetRequiredAuthorities op).2.1.foldl FlatSet.insert
          (getRequiredAuthorities operationGetRequiredAuthorities ops).owner,
        (getRequiredAuthorities operationGetRequiredAuthorities ops).other ++ (operationGetRequiredAuthorities op).2.2⟩ := by
  rw [getRequiredAuthorities, List.foldl_append]
  rfl

/-- An account is required active (owner) exactly when some operation requires it so; the other authorities
are the operations', in order. -/
theorem getRequiredAuthorities_spec (ops : List Op) :
    (∀ a, a ∈ (getRequiredAuthorities operationGetRequiredAuthorities ops).active ↔
      ∃ op ∈ ops, a ∈ (operationGetRequiredAuthorities op).1) ∧
    (∀ a, a ∈ (getRequiredAuthorities operationGetRequiredAuthorities ops).owner ↔
      ∃ op ∈ ops, a ∈ (operationGetRequiredAuthorities op).2.1) ∧
    (getRequiredAuthorities operationGetRequiredAuthorities ops).other =
      ops.flatMap fun op => (operationGetRequiredAuthorities op).2.2 := by
  induction ops using List.reverseRecOn with
  | nil => simp [getRequiredAuthorities]
  | append_singleton ops op ih =>
    obtain ⟨active, owner, other⟩ := ih
    rw [getRequiredAuthorities_append]
    refine ⟨fun a => ?_, fun a => ?_, by simp [other]⟩ <;>
      simp only [FlatSet.mem_foldl_insert, active, owner, List.mem_append, List.mem_singleton, exists_eq_or_imp,
        or_and_right, exists_or, exists_eq_left, or_comm]

end

end FffChain.Authority.Types
