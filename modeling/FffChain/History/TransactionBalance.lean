/- FffChain/History/TransactionBalance
   source: libraries/app/api.cpp, lines 250-280, 416-428
   digest: history_api::get_account_balance_for_transaction asks
   get_account_history for one operation from the id down. It answers for the
   account's newest operation at or below the id, or its most recent one when
   the id is 0 or above it: for the id itself only when the id is the
   account's and not 0. -/

import FffChain.History.BalancePages

set_option autoImplicit false
set_option relaxedAutoImplicit false

namespace FffChain.History.TransactionBalance

open FffChain.History.AccountHistory FffChain.History.BalanceHistory FffChain.History.BalancePages

/-- Modelled from the spec: balance_change_result (its header is not in the sources) as the call fills it: the
history object's id, the balances and the fee. -/
structure BalanceChangeResult where
  histObject : Nat
  asset0 : Asset
  asset1 : Asset
  fee : Asset

/-- The balance_change_result of an operation of the account. -/
def balanceChangeResult (views : Nat → BalanceView) (o : Nat) : BalanceChangeResult :=
  ⟨o, (views o).asset0, (views o).asset1, (views o).fee⟩

/-- history_api::get_account_balance_for_transaction: get_account_history(account_id, 0, 1,
operation_history_id), and the result for the operation it returns first. -/
def getAccountBalanceForTransaction (index : ByOpIndex) (mostRecentOp : Option Nat) (views : Nat → BalanceView)
    (accountId operationHistoryId : Nat) : Except HistoryError (Option BalanceChangeResult) := do
  let operationList ← getAccountHistory index mostRecentOp accountId 0 1 operationHistoryId
  match operationList with
  | [] => pure none
  | o :: _ => pure (some (balanceChangeResult views o))

/-- Operations 0 and 6 are not account 1's (5 and 7), yet the call for 6 answers for 5 and the call for 0
answers for 7. -/
theorem getAccountBalanceForTransaction_otherOperation (views : Nat → BalanceView) :
    6 ∉ accountOps ⟨[(1, 5), (1, 7)], by decide⟩ 1 ∧ 0 ∉ accountOps ⟨[(1, 5), (1, 7)], by decide⟩ 1 ∧
      getAccountBalanceForTransaction ⟨[(1, 5), (1, 7)], by decide⟩ (some 7) views 1 6 =
        .ok (some (balanceChangeResult views 5)) ∧
      getAccountBalanceForTransaction ⟨[(1, 5), (1, 7)], by decide⟩ (some 7) views 1 0 =
        .ok (some (balanceChangeResult views 7)) :=
  ⟨by decide, by decide, rfl, rfl⟩

theorem getAccountHistory_limitOne (index : ByOpIndex) (recent accountId operationHistoryId : Nat)
    (recentListed : (accountId, recent) ∈ index.entries) :
    getAccountHistory index (some recent) accountId 0 1 operationHistoryId =
      .ok ((accountOps index accountId).find? fun x =>
        x ≤ if operationHistoryId = 0 ∨ recent < operationHistoryId then recent else operationHistoryId).toList := by
  rw [getAccountHistory_eq index recent accountId 0 1 operationHistoryId recentListed (by decide), List.take_one,
    List.filter_head?]
  simp

private theorem find?_le_of_mem {D : List Nat} (desc : D.Sorted (· > ·)) {x : Nat} (mem : x ∈ D) :
    D.find? (fun y => y ≤ x) = some x := by
  induction D with
  | nil => exact absurd mem (List.not_mem_nil x)
  | cons y D ih =>
    rcases List.mem_cons.1 mem with rfl | later
    · exact List.find?_cons_of_pos _ (by simp)
    · have above : x < y := List.rel_of_sorted_cons desc x later
      rw [List.find?_cons_of_neg _ (by simpa using above), ih desc.of_cons later]

/-- get_account_balance_for_transaction answers for the account's newest operation at or below start', and
with none when there is none. -/
theorem getAccountBalanceForTransaction_eq (index : ByOpIndex) (recent : Nat) (views : Nat → BalanceView)
    (accountId operationHistoryId : Nat) (recentListed : (accountId, recent) ∈ index.entries) :
    getAccountBalanceForTransaction index (some recent) views accountId operationHistoryId =
      .ok (((accountOps index accountId).find? fun x =>
        x ≤ if operationHistoryId = 0 ∨ recent < operationHistoryId then recent else operationHistoryId).map
          (balanceChangeResult views)) := by
  rw [getAccountBalanceForTransaction, getAccountHistory_limitOne index recent accountId operationHistoryId recentListed]
  cases List.find? _ _ <;> rfl

/-- With operations 5 and 7, the call for 6 answers for the first operation
at or below 6. -/
theorem getAccountBalanceForTransaction_eq_fiveSeven :
    (1, 7) ∈ [(1, 5), (1, 7)] ∧
      getAccountBalanceForTransaction ⟨[(1, 5), (1, 7)], by decide⟩ (some 7) oneUnitEach 1 6 =
        .ok (((accountOps ⟨[(1, 5), (1, 7)], by decide⟩ 1).find? fun x =>
          x ≤ if 6 = 0 ∨ 7 < 6 then 7 else 6).map (balanceChangeResult oneUnitEach)) :=
  ⟨by decide, getAccountBalanceForTransaction_eq _ 7 oneUnitEach 1 6 (by decide)⟩

/-- When most_recent_op names the account's largest operation, the call for one of its operations other than 0
answers for that operation. -/
theorem getAccountBalanceForTransaction_ownOperation (index : ByOpIndex) (recent : Nat) (views : Nat → BalanceView)
    (accountId operationHistoryId : Nat) (recentListed : (accountId, recent) ∈ index.entries)
    (recentLargest : ∀ x, (accountId, x) ∈ index.entries → x ≤ recent)
    (own : (accountId, operationHistoryId) ∈ index.entries) (positive : 0 < operationHistoryId) :
    getAccountBalanceForTransaction index (some recent) views accountId operationHistoryId =
      .ok (some (balanceChangeResult views operationHistoryId)) := by
  have startAtId : (if operationHistoryId = 0 ∨ recent < operationHistoryId then recent else operationHistoryId) =
      operationHistoryId := if_neg (by have := recentLargest _ own; omega)
  have listed : operationHistoryId ∈ accountOps index accountId := by
    simp only [accountOps, List.mem_reverse, List.mem_map, List.mem_filter, decide_eq_true_eq]
    exact ⟨_, ⟨own, rfl⟩, rfl⟩
  rw [getAccountBalanceForTransaction, getAccountHistory_limitOne index recent accountId operationHistoryId recentListed,
    startAtId, find?_le_of_mem (accountOps_sorted index accountId) listed]
  rfl

/-- With operations 5 and 7, the call for 5 answers for 5. -/
theorem getAccountBalanceForTransaction_ownOperation_five :
    ((1, 7) ∈ [(1, 5), (1, 7)] ∧ (∀ x, (1, x) ∈ [(1, 5), (1, 7)] → x ≤ 7) ∧ (1, 5) ∈ [(1, 5), (1, 7)] ∧ 0 < 5) ∧
      getAccountBalanceForTransaction ⟨[(1, 5), (1, 7)], by decide⟩ (some 7) oneUnitEach 1 5 =
        .ok (some (balanceChangeResult oneUnitEach 5)) :=
  have largest : ∀ x, (1, x) ∈ [(1, 5), (1, 7)] → x ≤ 7 := fun x mem => by
    simp only [List.mem_cons, Prod.mk.injEq, true_and, List.mem_singleton, List.not_mem_nil, or_false] at mem
    omega
  ⟨⟨by decide, largest, by decide, by decide⟩,
    getAccountBalanceForTransaction_ownOperation ⟨[(1, 5), (1, 7)], by decide⟩ 7 oneUnitEach 1 5 (by decide) largest
      (by decide) (by decide)⟩

end FffChain.History.TransactionBalance
