/- FffChain/History/RelativeHistory
   source: libraries/app/api.cpp, lines 37, 282-308
   digest: history_api::get_relative_account_history walks the by_seq index
   down from upper_bound(account, start') to lower_bound(account, stop). On a
   sorted index the entries between the two bounds are exactly the account's
   entries with sequence from stop to start', so the walk returns the first
   limit of them, newest first, and never steps outside them. -/

import FffChain.History.AccountHistory

set_option autoImplicit false
set_option relaxedAutoImplicit false

namespace FffChain.History.RelativeHistory

open FffChain.History.AccountHistory

/-- An entry of the by_seq index: its account's instance, its sequence number and its operation's instance. -/
structure SeqEntry where
  account : Nat
  sequence : Nat
  operationId : Nat
deriving DecidableEq, Repr

/-- The by_seq order: by account, then by sequence. -/
def BySeq (e f : SeqEntry) : Prop := e.account < f.account ∨ e.account = f.account ∧ e.sequence < f.sequence

instance (e f : SeqEntry) : Decidable (BySeq e f) := inferInstanceAs (Decidable (_ ∨ _))

/-- Modelled from the spec: the by_seq index of account_transaction_history_index (its header is not in the
sources), in by_seq order, with no two keys alike. -/
structure BySeqIndex where
  entries : List SeqEntry
  sorted : entries.Sorted BySeq

/-- by_seq_idx.lower_bound(make_tuple(account, sequence)): the number of entries before the key. -/
def lowerBoundSeq (entries : List SeqEntry) (account sequence : Nat) : Nat :=
  (entries.takeWhile fun e => decide (e.account < account ∨ e.account = account ∧ e.sequence < sequence)).length

/-- by_seq_idx.upper_bound(make_tuple(account, sequence)): the position of
the first entry after the key. -/
def upperBoundSeq (entries : List SeqEntry) (account sequence : Nat) : Nat :=
  (entries.takeWhile fun e => decide (e.account < account ∨ e.account = account ∧ e.sequence ≤ sequence)).length

/-- What get_relative_account_history ends in besides a result: limit_exceeded_exception, a decrement of
begin(), or a dereference of end(). -/
inductive RelativeHistoryError where
  | limitExceeded
  | beforeBegin
  | pastEnd
deriving DecidableEq, Repr

/-- The while loop of get_relative_account_history: until itr_stop or the limit, --itr and push its operation;
iterators are positions, and the entries reached are returned in order. -/
def relativeWalk (entries : List SeqEntry) (itrStop limit : Nat) :
    Nat → List SeqEntry → Except RelativeHistoryError (List SeqEntry)
  | 0, reached => if 0 ≠ itrStop ∧ reached.length < limit then .error .beforeBegin else .ok reached
  | itr + 1, reached =>
    if itr + 1 ≠ itrStop ∧ reached.length < limit then
      match entries[itr]? with
      | some e => relativeWalk entries itrStop limit itr (reached ++ [e])
      | none => .error .pastEnd
    else .ok reached

/-- history_api::get_relative_account_history(account, stop, limit, start).
The account's statistics give total_ops. -/
def getRelativeAccountHistory (index : BySeqIndex) (totalOps account stop limit start : Nat) :
    Except RelativeHistoryError (List Nat) :=
  if currentOutputLimit100 < limit then .error .limitExceeded
  else
    let start := if start = 0 then totalOps else min totalOps start
    if stop ≤ start then
      List.map SeqEntry.operationId <$>
        relativeWalk index.entries (lowerBoundSeq index.entries account stop) limit
          (upperBoundSeq index.entries account start) []
    else .ok []

/-- The account's entries with sequence from stop to start, newest first. -/
def accountRange (index : BySeqIndex) (account stop start : Nat) : List SeqEntry :=
  (index.entries.filter fun e => e.account = account ∧ stop ≤ e.sequence ∧ e.sequence ≤ start).reverse

theorem relativeWalk_eq (entries : List SeqEntry) (itrStop limit : Nat) (itr : Nat) (reached : List SeqEntry)
    (stopBelow : itrStop ≤ itr) (within : itr ≤ entries.length) (room : reached.length ≤ limit) :
    relativeWalk entries itrStop limit itr reached =
      .ok (reached ++ ((entries.take itr).drop itrStop).reverse.take (limit - reached.length)) := by
  induction itr generalizing reached with
  | zero => simp [relativeWalk, show itrStop = 0 by omega]
  | succ itr ih =>
    rw [relativeWalk]
    by_cases go : itr + 1 ≠ itrStop ∧ reached.length < limit
    · have next : entries[itr]? = some entries[itr] := List.getElem?_eq_getElem (by omega)
      have takeNext : (entries.take (itr + 1)).drop itrStop = (entries.take itr).drop itrStop ++ [entries[itr]] := by
        rw [List.take_succ, next, Option.toList_some,
          List.drop_append_of_le_length (by rw [List.length_take]; omega)]
      have succ : limit - reached.length = limit - (reached.length + 1) + 1 := by omega
      rw [if_pos go, next]
      dsimp only
      rw [ih _ (by omega) (by omega) (by simp; omega), takeNext, succ]
      simp
    · have empty : ((entries.take (itr + 1)).drop itrStop).reverse.take (limit - reached.length) = [] := by
        rcases not_and_or.1 go with atStop | full
        · rw [List.drop_eq_nil_of_le (by rw [List.length_take]; omega), List.reverse_nil, List.take_nil]
        · rw [show limit - reached.length = 0 by omega, List.take_zero]
      rw [if_neg go, empty, List.append_nil]

section Bounds

variable (account : Nat)

/-- Whether an entry comes before the key (account, sequence) in the by_seq
order. -/
private def before (sequence : Nat) (e : SeqEntry) : Bool :=
  decide (e.account < account ∨ e.account = account ∧ e.sequence < sequence)

private theorem before_of_bySeq {sequence : Nat} {e f : SeqEntry} (order : BySeq e f)
    (fBefore : before account sequence f = true) : before account sequence e = true := by
  simp only [before, BySeq, decide_eq_true_eq] at *
  omega

private theorem drop_take_before (E : List SeqEntry) (sorted : E.Sorted BySeq) {stop bound : Nat} (le : stop ≤ bound) :
    (E.take (E.takeWhile (before account bound)).length).drop (E.takeWhile (before account stop)).length =
      E.filter fun e => e.account = account ∧ stop ≤ e.sequence ∧ e.sequence < bound := by
  induction E with
  | nil => rfl
  | cons x xs ih =>
    have later : ∀ y ∈ xs, BySeq x y := List.rel_of_sorted_cons sorted
    have after : ∀ sequence, before account sequence x = false → ∀ y ∈ xs, before account sequence y = false :=
      fun sequence xAfter y mem => Bool.eq_false_iff.2 fun yBefore => by
        simp [before_of_bySeq account (later y mem) yBefore] at xAfter
    by_cases belowStop : before account stop x = true
    · have belowBound : before account bound x = true := by
        simp only [before, decide_eq_true_eq] at belowStop ⊢
        omega
      rw [List.takeWhile_cons_of_pos belowBound, List.takeWhile_cons_of_pos belowStop, List.length_cons,
        List.length_cons, List.take_succ_cons, List.drop_succ_cons, ih sorted.of_cons,
        List.filter_cons_of_neg (by simp only [before, decide_eq_true_eq] at belowStop ⊢; omega)]
    · have stopNil : xs.takeWhile (before account stop) = [] := List.takeWhile_eq_nil_iff.2 fun nonempty => by
        simp [after stop (by simpa using belowStop) _ (List.getElem_mem nonempty)]
      by_cases belowBound : before account bound x = true
      · rw [List.takeWhile_cons_of_pos belowBound, List.takeWhile_cons_of_neg belowStop, List.length_nil,
          List.drop_zero, List.length_cons, List.take_succ_cons,
          List.filter_cons_of_pos (by simp only [before, decide_eq_true_eq] at belowStop belowBound ⊢; omega)]
        simpa [stopNil] using ih sorted.of_cons
      · rw [List.takeWhile_cons_of_neg belowBound, List.length_nil, List.take_zero, List.drop_nil]
        refine (List.filter_eq_nil_iff.2 fun y mem => ?_).symm
        have yAfter : before account bound y = false := by
          rcases List.mem_cons.1 mem with rfl | inXs
          · simpa using belowBound
          · exact after bound (by simpa using belowBound) y inXs
        simp only [before, decide_eq_false_iff_not] at yAfter
        simp only [decide_eq_true_eq]
        omega

private theorem length_takeWhile_before_le (E : List SeqEntry) {stop bound : Nat} (le : stop ≤ bound) :
    (E.takeWhile (before account stop)).length ≤ (E.takeWhile (before account bound)).length := by
  have within : E.takeWhile (before account stop) =
      (E.takeWhile (before account bound)).takeWhile (before account stop) := by
    rw [List.takeWhile_takeWhile]
    congr 1
    funext e
    simp only [before, decide_eq_true_eq, decide_eq_decide]
    exact ⟨fun below => ⟨below, by omega⟩, And.left⟩
  rw [within]
  exact (List.takeWhile_sublist _).length_le

end Bounds

private theorem upperBoundSeq_eq (entries : List SeqEntry) (account sequence : Nat) :
    upperBoundSeq entries account sequence = (entries.takeWhile (before account (sequence + 1))).length := by
  unfold upperBoundSeq
  congr 2
  funext e
  simp only [before, Nat.lt_succ_iff]

/-- get_relative_account_history within the limit, on a sorted index: the first limit entries of the account with
sequence from stop to start', newest first, reached with no decrement of begin() or dereference of end(). -/
theorem getRelativeAccountHistory_exact (index : BySeqIndex) (totalOps account stop limit start : Nat)
    (withinLimit : limit ≤ currentOutputLimit100) :
    getRelativeAccountHistory index totalOps account stop limit start =
        .ok (((accountRange index account stop (if start = 0 then totalOps else min totalOps start)).take limit).map
          SeqEntry.operationId) ∧
      (accountRange index account stop (if start = 0 then totalOps else min totalOps start)).Sorted
        (fun e f => f.sequence < e.sequence) ∧
      (stop ≤ (if start = 0 then totalOps else min totalOps start) →
        relativeWalk index.entries (lowerBoundSeq index.entries account stop) limit
            (upperBoundSeq index.entries account (if start = 0 then totalOps else min totalOps start)) [] =
          .ok ((accountRange index account stop (if start = 0 then totalOps else min totalOps start)).take limit)) := by
  generalize hs : (if start = 0 then totalOps else min totalOps start) = s
  obtain ⟨E, sorted⟩ := index
  have walk : stop ≤ s → relativeWalk E (lowerBoundSeq E account stop) limit (upperBoundSeq E account s) [] =
      .ok ((accountRange ⟨E, sorted⟩ account stop s).take limit) := fun le => by
    have lowerEq : lowerBoundSeq E account stop = (E.takeWhile (before account stop)).length := rfl
    rw [lowerEq, upperBoundSeq_eq, relativeWalk_eq _ _ _ _ _ (length_takeWhile_before_le account E (by omega))
      (List.takeWhile_sublist _).length_le (Nat.zero_le _), drop_take_before account E sorted (by omega)]
    simp only [accountRange, Nat.lt_succ_iff, List.nil_append, List.length_nil, Nat.sub_zero]
  refine ⟨?_, ?_, walk⟩
  · rw [getRelativeAccountHistory, if_neg (by omega)]
    dsimp only
    rw [hs]
    by_cases le : stop ≤ s
    · rw [if_pos le, walk le]
      rfl
    · have empty : accountRange ⟨E, sorted⟩ account stop s = [] := by
        simp only [accountRange, List.reverse_eq_nil_iff, List.filter_eq_nil_iff, decide_eq_true_eq]
        omega
      rw [if_neg le, empty, List.take_nil, List.map_nil]
  · refine List.pairwise_reverse.2 ((sorted.filter _).imp_of_mem fun ha hb order => ?_)
    simp only [List.mem_filter, decide_eq_true_eq] at ha hb
    simp only [BySeq] at order
    omega

/-- Account 1's entries 1 to 3, between an entry of account 0 and one of
account 2 that records the same operation as account 1's third. -/
def threeOfAccountOne : BySeqIndex :=
  ⟨[⟨0, 1, 4⟩, ⟨1, 1, 5⟩, ⟨1, 2, 6⟩, ⟨1, 3, 9⟩, ⟨2, 1, 9⟩], by decide⟩

/-- Start 0 reads from total_ops 3; stop 2 and limit 2 keep account 1's
entries 3 and 2. -/
theorem getRelativeAccountHistory_exact_twoOfThree :
    2 ≤ currentOutputLimit100 ∧
      getRelativeAccountHistory threeOfAccountOne 3 1 2 2 0 =
          .ok (((accountRange threeOfAccountOne 1 2 3).take 2).map SeqEntry.operationId) ∧
        (accountRange threeOfAccountOne 1 2 3).Sorted (fun e f => f.sequence < e.sequence) ∧
        (2 ≤ 3 → relativeWalk threeOfAccountOne.entries (lowerBoundSeq threeOfAccountOne.entries 1 2) 2
            (upperBoundSeq threeOfAccountOne.entries 1 3) [] = .ok ((accountRange threeOfAccountOne 1 2 3).take 2)) :=
  ⟨by decide, getRelativeAccountHistory_exact threeOfAccountOne 3 1 2 2 0 (by decide)⟩

example : getRelativeAccountHistory threeOfAccountOne 3 1 2 2 0 = .ok [9, 6] := rfl

end FffChain.History.RelativeHistory
