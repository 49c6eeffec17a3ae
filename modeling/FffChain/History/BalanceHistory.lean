/- FffChain/History/BalanceHistory
   source: libraries/app/api.cpp, lines 310-414
   digest: history_api::search_account_balance_history pages through the
   account's history 100 operations at a time with get_account_history, keeps
   the operations that pass its block, amount, asset and partner filters, and
   skips the first start_offset of them. A page that ends at operation 1 ends
   the search before operation 0 is read. -/

import FffChain.History.AccountHistory
import Mathlib.Tactic.Ring

set_option autoImplicit false
set_option relaxedAutoImplicit false

namespace FffChain.History.BalanceHistory

open FffChain.History.AccountHistory

/-- An asset as operation_get_balance_history fills it: an amount and the
instance of its asset_id. -/
structure Asset where
  amount : Int
  assetId : Nat

/-- What the partner filter tells apart of o.op.which(). -/
inductive OperationKind where
  | transferObsolete
  | transfer
  | other
deriving DecidableEq, Repr

/-- Modelled from the spec: what the search reads of an operation (operation_get_balance_history and
is_partner_account_id are not in the sources): block, balances, fee, kind and partner test. -/
structure BalanceView where
  blockNum : Nat
  asset0 : Asset
  asset1 : Asset
  fee : Asset
  kind : OperationKind
  isPartnerAccountId : Nat → Bool

/-- The filter of the loop body: block in range, some amount non-zero, a listed asset among the non-zero ones (or
none listed), and the partner named by a transfer when one is given. -/
def balanceKept (assetsList : List Nat) (partnerAccountId : Option Nat) (fromBlock toBlock : Nat)
    (info : BalanceView) : Bool :=
  if (fromBlock = 0 ∧ toBlock = 0) ∨ (fromBlock ≤ info.blockNum ∧ info.blockNum ≤ toBlock) then
    if info.asset0.amount ≠ 0 ∨ info.asset1.amount ≠ 0 ∨ info.fee.amount ≠ 0 then
      let isNonZeroBalanceForAsset0 := info.asset0.amount ≠ 0 ∧ info.asset0.assetId ∈ assetsList
      let isNonZeroBalanceForAsset1 := info.asset1.amount ≠ 0 ∧ info.asset1.assetId ∈ assetsList
      let isNonZeroFee := info.fee.amount ≠ 0 ∧ info.fee.assetId ∈ assetsList
      if assetsList = [] ∨ isNonZeroBalanceForAsset0 ∨ isNonZeroBalanceForAsset1 ∨ isNonZeroFee then
        let skipDueToPartnerAccountId :=
          match partnerAccountId with
          | none => false
          | some partner =>
            (info.kind = .transferObsolete ∨ info.kind = .transfer) ∧ !info.isPartnerAccountId partner
        !skipDueToPartnerAccountId
      else false
    else false
  else false

/-- The locals of search_account_balance_history that live across passes; result holds operation ids. -/
structure SearchState where
  result : List Nat
  currentHistory : List Nat
  start : Nat
  currentHistoryOffset : Nat
  currentOffset : Nat
  accountHistoryQueryRequired : Bool

/-- The locals before the loop. -/
def SearchState.initial : SearchState := ⟨[], [], 0, 0, 0, true⟩

/-- Storing the operation at current_history_offset, when the filter keeps it;
current_offset is a uint32_t. -/
def storeOperation (kept : Nat → Bool) (startOffset : Nat) (s : SearchState) (o : Nat) : SearchState :=
  if kept o then
    { s with result := if startOffset ≤ s.currentOffset then s.result ++ [o] else s.result,
             currentOffset := (s.currentOffset + 1) % 2 ^ 32 }
  else s

/-- Rolling in the account history: the next query starts below the last
operation of the page, or at operation 0 when the page ends there. -/
def rollHistory (s : SearchState) (back : Nat) : SearchState :=
  let start := back
  { s with accountHistoryQueryRequired := true, currentHistoryOffset := 0,
           start := if start ≠ 0 then start - 1 else start }

/-- One pass of the do-while loop; its query is get_account_history(account_id, 0, 100, start). -/
def searchBody (index : ByOpIndex) (mostRecentOp : Option Nat) (accountId : Nat) (kept : Nat → Bool)
    (startOffset : Nat) (s : SearchState) : Except HistoryError SearchState := do
  let s ← if s.accountHistoryQueryRequired then
      (fun currentHistory => { s with currentHistory := currentHistory, accountHistoryQueryRequired := false }) <$>
        getAccountHistory index mostRecentOp accountId 0 100 s.start
    else pure s
  let s :=
    if h : s.currentHistoryOffset < s.currentHistory.length then
      storeOperation kept startOffset s s.currentHistory[s.currentHistoryOffset]
    else if nonempty : s.currentHistory ≠ [] then rollHistory s (s.currentHistory.getLast nonempty)
    else s
  pure (if s.accountHistoryQueryRequired then s else { s with currentHistoryOffset := s.currentHistoryOffset + 1 })

/-- The condition of the do-while loop. -/
def searchContinues (limit : Nat) (s : SearchState) : Bool :=
  s.result.length < limit ∧ s.currentHistory ≠ [] ∧ s.currentHistoryOffset ≤ s.currentHistory.length ∧
    (s.currentHistoryOffset ≠ 0 ∨ s.start ≠ 0)

/-- The do-while loop, for at most `fuel` passes; none when the passes run out
before the condition fails. -/
def searchLoop (index : ByOpIndex) (mostRecentOp : Option Nat) (accountId : Nat) (kept : Nat → Bool)
    (startOffset limit : Nat) : Nat → SearchState → Except HistoryError (Option SearchState)
  | 0, _ => .ok none
  | fuel + 1, s => do
    let s ← searchBody index mostRecentOp accountId kept startOffset s
    if searchContinues limit s then searchLoop index mostRecentOp accountId kept startOffset limit fuel s
    else pure (some s)

/-- history_api::search_account_balance_history, given what it reads of each operation; two passes per index
entry bound the loop, and none would mean they ran out. -/
def searchAccountBalanceHistory (index : ByOpIndex) (mostRecentOp : Option Nat) (views : Nat → BalanceView)
    (accountId : Nat) (assetsList : List Nat) (partnerAccountId : Option Nat)
    (fromBlock toBlock startOffset limit : Nat) : Except HistoryError (Option (List Nat)) :=
  if 0 < limit then
    Option.map SearchState.result <$>
      searchLoop index mostRecentOp accountId
        (fun o => balanceKept assetsList partnerAccountId fromBlock toBlock (views o)) startOffset limit
        (2 * index.entries.length + 2) SearchState.initial
  else .ok (some [])

/-- The entries at positions start_offset to start_offset + limit - 1 of the
operations ops, newest first, that pass the filter. -/
def balancePage (ops : List Nat) (views : Nat → BalanceView) (assetsList : List Nat)
    (partnerAccountId : Option Nat) (fromBlock toBlock startOffset limit : Nat) : List Nat :=
  ((ops.filter fun o => balanceKept assetsList partnerAccountId fromBlock toBlock (views o)).drop startOffset).take
    limit

/-- The result the spec gives: that page of the account's whole history. -/
def specBalanceHistory (index : ByOpIndex) (views : Nat → BalanceView) (accountId : Nat) (assetsList : List Nat)
    (partnerAccountId : Option Nat) (fromBlock toBlock startOffset limit : Nat) : List Nat :=
  balancePage (accountOps index accountId) views assetsList partnerAccountId fromBlock toBlock startOffset limit

/-- The operations the search reads, newest first: all but operation 0 when the page before it ends at 1, that is
when the account has 100q + 1 operations and its oldest two are 1 and 0. -/
def searchedOps (ops : List Nat) : List Nat :=
  if ops.length % 100 = 1 ∧ ops.drop (ops.length - 2) = [1, 0] then ops.dropLast else ops

end FffChain.History.BalanceHistory
