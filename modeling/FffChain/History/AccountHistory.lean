/- FffChain/History/AccountHistory
   source: libraries/app/api.cpp, lines 37, 250-280
   digest: history_api::get_account_history walks the by_op index down from
   lower_bound(account, start). It returns the account's operations from start
   down, except that the first entry of the whole index is read only when stop
   is 0. -/

import Mathlib.Data.List.Sort

set_option autoImplicit false
set_option relaxedAutoImplicit false

namespace FffChain.History.AccountHistory

/-- An entry of account_transaction_history_index: the instance of its
account's id and of the id of its operation_history_object. -/
abbrev HistoryEntry := Nat × Nat

/-- The by_op order: by account, then by operation id. -/
def ByOp (e f : HistoryEntry) : Prop := e.1 < f.1 ∨ e.1 = f.1 ∧ e.2 < f.2

instance (e f : HistoryEntry) : Decidable (ByOp e f) := inferInstanceAs (Decidable (_ ∨ _))

/-- Modelled from the spec: the by_op index of account_transaction_history_index (its header is not in the
sources), in by_op order, with no two entries alike. -/
structure ByOpIndex where
  entries : List HistoryEntry
  sorted : entries.Sorted ByOp

/-- The index without its first entry, index_start. -/
def ByOpIndex.dropFirst (index : ByOpIndex) : ByOpIndex := ⟨index.entries.tail, index.sorted.tail⟩

/-- CURRENT_OUTPUT_LIMIT_100. -/
def currentOutputLimit100 : Nat := 100

/-- by_op_idx.lower_bound(key): the position of the first entry not before
`key`, that is, the number of entries before it. -/
def lowerBound (entries : List HistoryEntry) (key : HistoryEntry) : Nat :=
  (entries.takeWhile (fun e => decide (ByOp e key))).length

/-- What get_account_history ends in besides a result: limit_exceeded_exception, or an unguarded dereference
of by_op_idx.end(). -/
inductive HistoryError where
  | limitExceeded
  | pastEnd
deriving DecidableEq, Repr

/-- The while loop of get_account_history from itr down to index_start: it stops at index_start, at another
account's entry, at or below stop, or when full, and takes the operations at or below start. -/
def walkBack (account stop limit start : Nat) :
    List HistoryEntry → List Nat → List HistoryEntry × List Nat
  | e :: f :: below, result =>
    if e.1 = account ∧ stop < e.2 ∧ result.length < limit then
      walkBack account stop limit start (f :: below)
        (if e.2 ≤ start then result ++ [e.2] else result)
    else (e :: f :: below, result)
  | below, result => (below, result)

/-- The test after the loop: the entry itr stopped at is taken when stop is 0, it is the account's, at or below
start, and the result is not full. -/
def fixUp (account stop limit start : Nat) : List HistoryEntry × List Nat → List Nat
  | (e :: _, result) =>
    if stop = 0 ∧ e.1 = account ∧ e.2 ≤ start ∧ result.length < limit then result ++ [e.2]
    else result
  | ([], result) => result

/-- history_api::get_account_history(account, stop, limit, start); most_recent_op comes from the account's
statistics, none when it names no history node. -/
def getAccountHistory (index : ByOpIndex) (mostRecentOp : Option Nat) (account stop limit start : Nat) :
    Except HistoryError (List Nat) :=
  if currentOutputLimit100 < limit then .error .limitExceeded
  else
    match mostRecentOp with
    | none => .ok []
    | some recent =>
      let start := if start = 0 ∨ recent < start then recent else start
      let position := lowerBound index.entries (account, start)
      if position < index.entries.length then
        .ok (fixUp account stop limit start
          (walkBack account stop limit start (index.entries.take (position + 1)).reverse []))
      else if index.entries = [] ∧ stop ≠ 0 then .ok []
      else .error .pastEnd

/-- The operation ids of the account in the by_op index, largest first. -/
def accountOps (index : ByOpIndex) (account : Nat) : List Nat :=
  ((index.entries.filter (fun e => e.1 = account)).map Prod.snd).reverse

/-- The spec's result: the first limit operations of the account, largest first, at or below start' and above stop
unless stop is 0, start' being the most recent operation when start is 0 or above it. -/
def specAccountHistory (index : ByOpIndex) (recent account stop limit start : Nat) : List Nat :=
  let start := if start = 0 ∨ recent < start then recent else start
  ((accountOps index account).filter (fun x => x ≤ start ∧ (stop < x ∨ stop = 0))).take limit

/-- A stop above 0 loses the account's oldest operation when its entry opens the index: with operations 5 and 7,
stop 1 and start 0 the walk stops at index_start without taking 5. -/
theorem getAccountHistory_firstEntryLost :
    getAccountHistory ⟨[(1, 5), (1, 7)], by decide⟩ (some 7) 1 1 100 0 = .ok [7] ∧
      specAccountHistory ⟨[(1, 5), (1, 7)], by decide⟩ 7 1 1 100 0 = [7, 5] :=
  ⟨rfl, rfl⟩

section Walk

variable (account stop limit start : Nat)

/-- What the walk and its fix-up take from the entries at and below itr before the limit; index_start is taken
only when stop is 0. -/
def walkTakes (W : List HistoryEntry) : List Nat :=
  ((W.filter (fun e => e.1 = account)).map Prod.snd).filter
    (fun x => x ≤ start ∧ (stop < x ∨ stop = 0) ∧ ¬(stop ≠ 0 ∧ W.getLast? = some (account, x)))

private theorem walkTakes_singleton (e : HistoryEntry) :
    walkTakes account stop start [e] =
      if e.1 = account ∧ e.2 ≤ start ∧ stop = 0 then [e.2] else [] := by
  obtain ⟨a, x⟩ := e
  by_cases own : a = account <;> by_cases zero : stop = 0 <;>
    by_cases le : x ≤ start <;> simp [walkTakes, own, zero, le]

private theorem walkTakes_cons_cons (e f : HistoryEntry) (below : List HistoryEntry)
    (desc : ∀ g ∈ f :: below, ByOp g e) :
    walkTakes account stop start (e :: f :: below) =
      (if e.1 = account ∧ e.2 ≤ start ∧ (stop < e.2 ∨ stop = 0) then [e.2] else []) ++
        walkTakes account stop start (f :: below) := by
  have notLast : e.1 = account → (f :: below).getLast? ≠ some (account, e.2) := by
    intro own last
    have := desc _ (List.mem_of_mem_getLast? last)
    simp only [ByOp] at this
    omega
  unfold walkTakes
  rw [List.getLast?_cons_cons]
  by_cases own : e.1 = account
  · by_cases take : e.2 ≤ start ∧ (stop < e.2 ∨ stop = 0)
    · rw [List.filter_cons_of_pos (by simpa using own), List.map_cons,
        List.filter_cons_of_pos (by simpa [notLast own] using take), if_pos ⟨own, take⟩]
      rfl
    · rw [List.filter_cons_of_pos (by simpa using own), List.map_cons,
        List.filter_cons_of_neg (by simpa [notLast own] using take), if_neg fun c => take c.2]
      rfl
  · rw [List.filter_cons_of_neg (by simpa using own), if_neg fun c => own c.1]
    rfl

private theorem walkTakes_eq_nil (W : List HistoryEntry) (atOrBelow : ∀ g ∈ W, g.1 = account → g.2 < stop) :
    walkTakes account stop start W = [] := by
  simp only [walkTakes, List.filter_eq_nil_iff, List.mem_map, List.mem_filter]
  rintro _ ⟨g, ⟨mem, own⟩, rfl⟩
  have := atOrBelow g mem (of_decide_eq_true own)
  simp only [decide_eq_true_eq]
  omega

theorem fixUp_walkBack (W : List HistoryEntry) (r : List Nat)
    (desc : W.Sorted (fun e f => ByOp f e)) (atMost : ∀ e ∈ W, e.1 ≤ account)
    (room : r.length ≤ limit) (nonempty : W ≠ []) :
    fixUp account stop limit start (walkBack account stop limit start W r) =
      r ++ (walkTakes account stop start W).take (limit - r.length) := by
  induction W generalizing r with
  | nil => exact absurd rfl nonempty
  | cons e W ih =>
    rcases W with _ | ⟨f, below⟩
    · have fixUpSingle : fixUp account stop limit start (walkBack account stop limit start [e] r) =
          if stop = 0 ∧ e.1 = account ∧ e.2 ≤ start ∧ r.length < limit then r ++ [e.2] else r := rfl
      rw [fixUpSingle, walkTakes_singleton]
      by_cases c : e.1 = account ∧ e.2 ≤ start ∧ stop = 0
      · by_cases full : r.length < limit
        · simp [c, full, List.take_of_length_le (show [e.2].length ≤ limit - r.length by simp; omega)]
        · simp [c, full, show limit - r.length = 0 by omega]
      · rw [if_neg (by tauto), if_neg c, List.take_nil, List.append_nil]
    · have above : ∀ g ∈ f :: below, ByOp g e := List.rel_of_sorted_cons desc
      have atMostTail : ∀ g ∈ f :: below, g.1 ≤ account := fun g mem => atMost g (List.mem_cons_of_mem e mem)
      rw [walkTakes_cons_cons account stop start e f below above]
      rw [walkBack]
      by_cases go : e.1 = account ∧ stop < e.2 ∧ r.length < limit
      · have room' : (if e.2 ≤ start then r ++ [e.2] else r).length ≤ limit := by
          split_ifs
          · rw [List.length_append, List.length_singleton]; omega
          · exact room
        rw [if_pos go, ih _ desc.of_cons atMostTail room' (List.cons_ne_nil f below)]
        by_cases le : e.2 ≤ start
        · have succ : limit - r.length = limit - (r.length + 1) + 1 := by omega
          simp [le, go, succ]
        · simp [le]
      · rw [if_neg go]
        by_cases full : r.length < limit
        · have eAtMost := atMost e (List.mem_cons_self e _)
          rw [walkTakes_eq_nil account stop start (f :: below) fun g mem gOwn => by
            have := above g mem
            simp only [ByOp] at this
            omega]
          rw [fixUp, List.append_nil]
          by_cases own : e.1 = account
          · by_cases take : e.2 ≤ start ∧ stop = 0
            · rw [if_pos ⟨take.2, own, take.1, full⟩, if_pos ⟨own, take.1, Or.inr take.2⟩,
                List.take_of_length_le (by rw [List.length_singleton]; omega)]
            · rw [if_neg fun c => take ⟨c.2.2.1, c.1⟩,
                if_neg fun c => take ⟨c.2.1, by have := c.2.2; omega⟩, List.take_nil, List.append_nil]
          · rw [if_neg fun c => own c.2.1, if_neg fun c => own c.1, List.take_nil, List.append_nil]
        · rw [fixUp, if_neg fun c => full c.2.2.2, show limit - r.length = 0 by omega, List.take_zero,
            List.append_nil]

end Walk

private theorem lowerBound_split {L : List HistoryEntry} (sorted : L.Sorted ByOp) {account recent s : Nat}
    (recentListed : (account, recent) ∈ L) (sLe : s ≤ recent) :
    ∃ T u U, L = T ++ u :: U ∧ lowerBound L (account, s) = T.length ∧ (∀ e ∈ T, ByOp e (account, s)) ∧
      u.1 = account ∧ s ≤ u.2 ∧ ∀ g ∈ U, g.1 = account → s < g.2 := by
  generalize hT : L.takeWhile (fun e => decide (ByOp e (account, s))) = T
  have split : T ++ L.dropWhile (fun e => decide (ByOp e (account, s))) = L := by
    rw [← hT, List.takeWhile_append_dropWhile]
  generalize hU : L.dropWhile (fun e => decide (ByOp e (account, s))) = U at split
  subst split
  have beforeKey : ∀ e ∈ T, ByOp e (account, s) := fun e mem => by
    have := @List.mem_takeWhile_imp _ _ _ e (by rw [hT]; exact mem)
    simpa using this
  have recentInU : (account, recent) ∈ U := by
    rcases List.mem_append.1 recentListed with inT | inU
    · have := beforeKey _ inT
      simp only [ByOp] at this
      omega
    · exact inU
  obtain ⟨u, U, rfl⟩ := List.exists_cons_of_ne_nil (List.ne_nil_of_mem recentInU)
  have uFirst : ¬ ByOp u (account, s) := by
    have := List.head_dropWhile_not (fun e => decide (ByOp e (account, s))) (T ++ u :: U) (by simp [hU])
    simpa [hU] using this
  have sortedU : (u :: U).Sorted ByOp := (List.pairwise_append.1 sorted).2.1
  have uOwn : u.1 = account ∧ s ≤ u.2 := by
    rcases List.mem_cons.1 recentInU with same | later
    · rw [← same]; exact ⟨rfl, sLe⟩
    · have := List.rel_of_sorted_cons sortedU _ later
      simp only [ByOp] at this uFirst
      omega
  refine ⟨T, u, U, rfl, by rw [lowerBound, hT], beforeKey, uOwn.1, uOwn.2, fun g mem own => ?_⟩
  have := List.rel_of_sorted_cons sortedU g mem
  simp only [ByOp] at this
  omega

/-- When the account's most recent operation is in the index, the walk never reads past it and returns the
account's operations from start' down, filtered as walkTakes filters them. -/
theorem getAccountHistory_eq (index : ByOpIndex) (recent account stop limit start : Nat)
    (recentListed : (account, recent) ∈ index.entries) (withinLimit : limit ≤ currentOutputLimit100) :
    getAccountHistory index (some recent) account stop limit start =
      .ok (((accountOps index account).filter fun x =>
        x ≤ (if start = 0 ∨ recent < start then recent else start) ∧ (stop < x ∨ stop = 0) ∧
          ¬(stop ≠ 0 ∧ index.entries.head? = some (account, x))).take limit) := by
  obtain ⟨L, sorted⟩ := index
  rw [getAccountHistory, if_neg (by omega)]
  dsimp only [accountOps]
  generalize hs : (if start = 0 ∨ recent < start then recent else start) = s
  obtain ⟨T, u, U, rfl, position, beforeKey, uOwn, uStart, aboveStart⟩ :=
    lowerBound_split sorted recentListed (show s ≤ recent by rw [← hs]; split_ifs <;> omega)
  have prefixSorted : (T ++ [u]).Sorted ByOp :=
    sorted.sublist ((List.nil_sublist U).cons₂ u |>.append_left T)
  have atMost : ∀ e ∈ (T ++ [u]).reverse, e.1 ≤ account := fun e mem => by
    rcases List.mem_append.1 (List.mem_reverse.1 mem) with inT | isU
    · have := beforeKey e inT
      simp only [ByOp] at this
      omega
    · rw [List.mem_singleton.1 isU]; exact le_of_eq uOwn
  have takeEq : (T ++ u :: U).take (T.length + 1) = T ++ [u] := by
    simp [List.take_append_eq_append_take]
  have lastEq : (T ++ [u]).reverse.getLast? = (T ++ u :: U).head? := by
    rw [List.getLast?_reverse]
    cases T <;> rfl
  have opsSplit : ((List.filter (fun e : HistoryEntry => decide (e.1 = account)) (T ++ u :: U)).map Prod.snd).reverse =
      ((List.filter (fun e : HistoryEntry => decide (e.1 = account)) U).map Prod.snd).reverse ++
        (List.filter (fun e : HistoryEntry => decide (e.1 = account)) (T ++ [u]).reverse).map Prod.snd := by
    rw [show T ++ u :: U = (T ++ [u]) ++ U by simp, List.filter_append, List.map_append, List.reverse_append,
      List.filter_reverse, List.map_reverse]
  rw [position, if_pos (by simp), takeEq, fixUp_walkBack account stop limit s _ [] (List.pairwise_reverse.2 prefixSorted)
    atMost (Nat.zero_le _) (by simp), List.nil_append, List.length_nil, Nat.sub_zero, walkTakes, lastEq, opsSplit,
    List.filter_append]
  congr 2
  symm
  rw [List.append_left_eq_self, List.filter_eq_nil_iff]
  simp only [List.mem_reverse, List.mem_map, List.mem_filter]
  rintro _ ⟨g, ⟨mem, own⟩, rfl⟩
  have := aboveStart g mem (of_decide_eq_true own)
  simp only [decide_eq_true_eq]
  omega

theorem filter_accountOps_dropFirst (index : ByOpIndex) (account : Nat) (p : Nat → Bool) :
    (accountOps index account).filter (fun x => p x && !decide (index.entries.head? = some (account, x))) =
      (accountOps index.dropFirst account).filter p := by
  obtain ⟨_ | ⟨⟨b, y⟩, L⟩, sorted⟩ := index
  · simp [accountOps, ByOpIndex.dropFirst]
  by_cases own : b = account
  · subst own
    have later : ∀ x ∈ accountOps ⟨L, sorted.tail⟩ b, x ≠ y := fun x mem same => by
      simp only [accountOps, List.mem_reverse, List.mem_map, List.mem_filter] at mem
      obtain ⟨g, ⟨gIn, gOwn⟩, rfl⟩ := mem
      have := List.rel_of_sorted_cons sorted g gIn
      simp only [ByOp, ← same, of_decide_eq_true gOwn] at this
      omega
    have split : accountOps ⟨(b, y) :: L, sorted⟩ b = accountOps ⟨L, sorted.tail⟩ b ++ [y] := by
      simp [accountOps, List.filter_cons]
    rw [split, List.filter_append, List.filter_singleton]
    simp only [List.head?_cons, decide_True, Bool.not_true, Bool.and_false, cond_false, List.append_nil]
    exact List.filter_congr fun x mem => by simp [(later x mem).symm]
  · simp [accountOps, ByOpIndex.dropFirst, List.filter_cons, own]

/-- get_account_history answers the spec's query, except that with a stop
above 0 it answers it over the index without index_start. -/
theorem getAccountHistory_answersSpec (index : ByOpIndex) (recent account stop limit start : Nat)
    (recentListed : (account, recent) ∈ index.entries) (withinLimit : limit ≤ currentOutputLimit100) :
    getAccountHistory index (some recent) account stop limit start =
      .ok (specAccountHistory (if stop = 0 then index else index.dropFirst) recent account stop limit start) := by
  rw [getAccountHistory_eq index recent account stop limit start recentListed withinLimit, specAccountHistory]
  by_cases zero : stop = 0
  · rw [if_pos zero]
    simp [zero]
  · rw [if_neg zero, ← filter_accountOps_dropFirst]
    simp [zero, Bool.and_assoc]

theorem getAccountHistory_answersSpec_firstEntry :
    ((1, 7) ∈ [(1, 5), (1, 7)] ∧ 100 ≤ currentOutputLimit100) ∧
      getAccountHistory ⟨[(1, 5), (1, 7)], by decide⟩ (some 7) 1 1 100 0 =
        .ok (specAccountHistory (if 1 = 0 then ⟨[(1, 5), (1, 7)], by decide⟩ else ByOpIndex.dropFirst ⟨[(1, 5), (1, 7)], by decide⟩) 7 1 1 100 0) :=
  ⟨⟨by decide, by decide⟩, getAccountHistory_answersSpec _ 7 1 1 100 0 (by decide) (by decide)⟩

end FffChain.History.AccountHistory
