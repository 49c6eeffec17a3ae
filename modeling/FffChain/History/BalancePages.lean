/- FffChain/History/BalancePages
   source: libraries/app/api.cpp, lines 250-280, 310-414
   digest: search_account_balance_history reads the account's operations in
   pages of 100 from get_account_history, each page starting below the last.
   It stores exactly the spec's entries of what it reads, which is the whole
   history except operation 0 when the page before it ends at operation 1. -/

import FffChain.History.BalanceHistory

set_option autoImplicit false
set_option relaxedAutoImplicit false

namespace FffChain.History.BalancePages

open FffChain.History.AccountHistory FffChain.History.BalanceHistory

theorem accountOps_sorted (index : ByOpIndex) (account : Nat) : (accountOps index account).Sorted (· > ·) := by
  refine List.pairwise_reverse.2 (List.pairwise_map.2 ((index.sorted.filter _).imp_of_mem fun ha hb order => ?_))
  simp only [List.mem_filter, decide_eq_true_eq] at ha hb
  simp only [ByOp] at order
  omega

section Descending

variable {D : List Nat}

theorem desc_lt (desc : D.Sorted (· > ·)) {i j a b : Nat} (before : i < j) (hi : D[i]? = some a) (hj : D[j]? = some b) :
    b < a := by
  obtain ⟨hi', rfl⟩ := List.getElem?_eq_some_iff.1 hi
  obtain ⟨hj', rfl⟩ := List.getElem?_eq_some_iff.1 hj
  exact List.pairwise_iff_getElem.1 desc i j hi' hj' before

theorem filter_lt_eq_drop (desc : D.Sorted (· > ·)) {i a : Nat} (hi : D[i]? = some a) :
    D.filter (fun x => x < a) = D.drop (i + 1) := by
  induction D generalizing i with
  | nil => simp at hi
  | cons y D ih =>
    have below := List.rel_of_sorted_cons desc
    cases i with
    | zero =>
      simp only [List.getElem?_cons_zero, Option.some.injEq] at hi
      subst hi
      rw [List.filter_cons_of_neg (by simp), List.filter_eq_self.2 (fun x mem => by simpa using below x mem)]
      rfl
    | succ i =>
      simp only [List.getElem?_cons_succ] at hi
      have ya : a < y := below a (List.getElem?_mem hi)
      rw [List.filter_cons_of_neg (by simp; omega), ih desc.of_cons hi]
      rfl

end Descending

section Pages

variable {D : List Nat}

theorem length_searchedOps (D : List Nat) :
    (searchedOps D).length =
      if D.length % 100 = 1 ∧ D.drop (D.length - 2) = [1, 0] then D.length - 1 else D.length := by
  unfold searchedOps
  split_ifs <;> simp [List.length_dropLast]

theorem take_searchedOps {N : Nat} (fits : N ≤ (searchedOps D).length) : (searchedOps D).take N = D.take N := by
  unfold searchedOps at fits ⊢
  split_ifs at fits ⊢
  · rw [List.dropLast_eq_take, List.take_take, min_eq_left (by simpa [List.length_dropLast] using fits)]
  · rfl

theorem page_getElem? (m k : Nat) (inPage : k < ((D.drop m).take 100).length) :
    ((D.drop m).take 100)[k]? = D[m + k]? := by
  rw [List.getElem?_take, if_pos (by simp at inPage; omega), List.getElem?_drop]

theorem length_page (m : Nat) : ((D.drop m).take 100).length = min 100 (D.length - m) := by
  simp

/-- Where the search is inside a page: the page holds 100 operations of D from one that opens a page, and the
first offset of them were read, n operations of D in all. -/
structure InPage (D : List Nat) (n : Nat) (page : List Nat) (offset : Nat) : Prop where
  page_eq : page = (D.drop (n - offset)).take 100
  started : 0 < offset
  within : offset ≤ page.length
  le_read : offset ≤ n
  aligned : (n - offset) % 100 = 0
  fits : n - offset + page.length ≤ (searchedOps D).length

/-- Where the search is when it queries the page after n operations of D: at the start of a page of D unless D
is done. -/
structure AtQuery (D : List Nat) (n : Nat) : Prop where
  aligned : n % 100 = 0 ∨ D.length ≤ n
  fits : n ≤ (searchedOps D).length
  pageFits : n < D.length → n + ((D.drop n).take 100).length ≤ (searchedOps D).length

theorem two_le_of_ends (ends : D.drop (D.length - 2) = [1, 0]) : 2 ≤ D.length := by
  have := congrArg List.length ends
  simp at this
  omega

theorem AtQuery.initial : AtQuery D 0 where
  aligned := Or.inl rfl
  fits := Nat.zero_le _
  pageFits := fun _ => by
    rw [length_searchedOps, length_page]
    split_ifs with lost
    · have := two_le_of_ends lost.2
      omega
    · omega

theorem AtQuery.done {n : Nat} (at_ : AtQuery D n) (past : D.length ≤ n) : n = (searchedOps D).length := by
  have := at_.fits
  have := length_searchedOps D
  split_ifs at this <;> omega

theorem AtQuery.first {n : Nat} (at_ : AtQuery D n) (more : n < D.length) :
    InPage D (n + 1) ((D.drop n).take 100) 1 where
  page_eq := rfl
  started := Nat.one_pos
  within := by rw [length_page]; omega
  le_read := by omega
  aligned := by have := at_.aligned; omega
  fits := by have := at_.pageFits more; omega

theorem InPage.read_le {n offset : Nat} {page : List Nat} (inPage : InPage D n page offset) :
    n ≤ (searchedOps D).length := by
  have := inPage.fits
  have := inPage.within
  have := inPage.le_read
  omega

theorem InPage.next {n offset : Nat} {page : List Nat} (inPage : InPage D n page offset)
    (more : offset < page.length) : InPage D (n + 1) page (offset + 1) where
  page_eq := by rw [inPage.page_eq]; congr 2; have := inPage.le_read; omega
  started := Nat.succ_pos _
  within := more
  le_read := by have := inPage.le_read; omega
  aligned := by have := inPage.aligned; have := inPage.le_read; rwa [show n + 1 - (offset + 1) = n - offset by omega]
  fits := by have := inPage.fits; have := inPage.le_read; rwa [show n + 1 - (offset + 1) = n - offset by omega]

theorem InPage.getElem? {n offset : Nat} {page : List Nat} (inPage : InPage D n page offset)
    (more : offset < page.length) : page[offset]? = D[n]? := by
  have := inPage.le_read
  rw [inPage.page_eq] at more ⊢
  rw [page_getElem? _ _ more, show n - offset + offset = n by omega]

theorem InPage.getLast? {n : Nat} {page : List Nat} (inPage : InPage D n page page.length) :
    page.getLast? = D[n - 1]? := by
  have started := inPage.started
  have le_read := inPage.le_read
  obtain ⟨m, hm⟩ : ∃ m, n - page.length = m := ⟨_, rfl⟩
  have pageEq : page = (D.drop m).take 100 := hm ▸ inPage.page_eq
  have inRange : page.length - 1 < ((D.drop m).take 100).length := by rw [← pageEq]; omega
  have onPage : page[page.length - 1]? = ((D.drop m).take 100)[page.length - 1]? := by rw [← pageEq]
  rw [List.getLast?_eq_getElem?, onPage, page_getElem? _ _ inRange]
  congr 1
  omega

theorem InPage.page_length {n : Nat} {page : List Nat} (inPage : InPage D n page page.length) :
    page.length = min 100 (D.length - (n - page.length)) := by
  conv_lhs => rw [inPage.page_eq]
  exact length_page _

theorem InPage.rollOn {n back : Nat} {page : List Nat} (inPage : InPage D n page page.length)
    (last : D[n - 1]? = some back) (above : 2 ≤ back) : AtQuery D n :=
  have aligned : n % 100 = 0 ∨ D.length ≤ n := by
    have := inPage.page_length
    have := inPage.aligned
    have := inPage.le_read
    omega
  { aligned
    fits := inPage.read_le
    pageFits := fun more => by
      rw [length_page, length_searchedOps]
      split_ifs with lost
      · have second : D[D.length - 2]? = some 1 := by
          have := congrArg (·[0]?) lost.2
          simpa using this
        have notLast : n ≠ D.length - 1 := fun same => by
          have := two_le_of_ends lost.2
          rw [same, show D.length - 1 - 1 = D.length - 2 by omega, second] at last
          cases last
          omega
        omega
      · omega }

theorem InPage.rollOff (desc : D.Sorted (· > ·)) {n back : Nat} {page : List Nat}
    (inPage : InPage D n page page.length) (last : D[n - 1]? = some back) (below : back ≤ 1) :
    n = (searchedOps D).length := by
  have fits := inPage.read_le
  have started := inPage.started
  have le_read := inPage.le_read
  by_cases past : D.length ≤ n
  · have shorter : (searchedOps D).length ≤ D.length := by rw [length_searchedOps]; split_ifs <;> omega
    omega
  obtain ⟨y, hy⟩ : ∃ y, D[n]? = some y := ⟨_, List.getElem?_eq_getElem (by omega)⟩
  have yBelow := desc_lt desc (show n - 1 < n by omega) last hy
  have lastOne : D.length = n + 1 := by
    by_contra longer
    obtain ⟨z, hz⟩ : ∃ z, D[n + 1]? = some z := ⟨_, List.getElem?_eq_getElem (by omega)⟩
    have := desc_lt desc (Nat.lt_succ_self n) hy hz
    omega
  have ends : D.drop (D.length - 2) = [1, 0] := by
    apply List.ext_getElem?
    intro i
    rw [List.getElem?_drop]
    match i with
    | 0 => rw [show D.length - 2 + 0 = n - 1 by omega, last]; simp; omega
    | 1 => rw [show D.length - 2 + 1 = n by omega, hy]; simp; omega
    | i + 2 => rw [List.getElem?_eq_none (by omega)]; rfl
  have fullPage : D.length % 100 = 1 := by
    have := inPage.page_length
    have := inPage.aligned
    omega
  rw [length_searchedOps, if_pos ⟨fullPage, ends⟩]
  omega

theorem take_filter_drop_eq (L : List Nat) (kept : Nat → Bool) (startOffset limit N : Nat)
    (atMost : (((L.take N).filter kept).drop startOffset).length ≤ limit)
    (done : limit ≤ (((L.take N).filter kept).drop startOffset).length ∨ N = L.length) :
    ((L.take N).filter kept).drop startOffset = ((L.filter kept).drop startOffset).take limit := by
  rcases done with full | all
  · conv_rhs => rw [← List.take_append_drop N L, List.filter_append, List.drop_append_eq_append_drop]
    rw [List.take_left' (le_antisymm atMost full)]
  · subst all
    rw [List.take_length] at atMost ⊢
    rw [List.take_of_length_le atMost]

theorem result_eq_final (kept : Nat → Bool) (startOffset limit : Nat) {N : Nat}
    (fits : N ≤ (searchedOps D).length)
    (atMost : (((D.take N).filter kept).drop startOffset).length ≤ limit)
    (done : limit ≤ (((D.take N).filter kept).drop startOffset).length ∨ N = (searchedOps D).length) :
    ((D.take N).filter kept).drop startOffset = (((searchedOps D).filter kept).drop startOffset).take limit := by
  rw [← take_searchedOps fits] at atMost done ⊢
  exact take_filter_drop_eq _ kept startOffset limit N atMost done

end Pages

section Read

variable (kept : Nat → Bool) (startOffset : Nat)

/-- The locals after the first n operations of D were read, as far as they
follow from n. -/
def readState (D : List Nat) (n : Nat) (currentHistory : List Nat) (start offset : Nat) (query : Bool) :
    SearchState :=
  ⟨(((D.take n).filter kept).drop startOffset), currentHistory, start, offset, ((D.take n).filter kept).length, query⟩

theorem storeOperation_readState (D : List Nat) (fits : (D.filter kept).length < 2 ^ 32) (n : Nat)
    (history : List Nat) (start offset : Nat) (query : Bool) {x : Nat} (hD : D[n]? = some x) :
    storeOperation kept startOffset (readState kept startOffset D n history start offset query) x =
      readState kept startOffset D (n + 1) history start offset query := by
  have within := (((List.take_sublist (n + 1) D).filter kept).length_le).trans_lt fits
  unfold storeOperation readState
  rw [List.take_succ, hD, Option.toList_some, List.filter_append, List.filter_singleton] at within ⊢
  generalize (D.take n).filter kept = before at within ⊢
  by_cases keep : kept x
  · simp only [keep, cond_true, List.length_append, List.length_singleton] at within
    rw [Nat.mod_eq_of_lt within]
    by_cases skip : startOffset ≤ before.length
    · simp [keep, skip, List.drop_append_eq_append_drop, Nat.sub_eq_zero_of_le skip]
    · have long : (before ++ [x]).length ≤ startOffset := by
        rw [List.length_append, List.length_singleton]; omega
      simp [keep, skip, List.drop_eq_nil_of_le long, List.drop_eq_nil_of_le (Nat.le_of_not_le skip)]
  · simp [keep]

end Read

section Body

variable (index : ByOpIndex) (mostRecentOp : Option Nat) (accountId : Nat) (kept : Nat → Bool) (startOffset : Nat)

theorem searchBody_read (D : List Nat) (fits : (D.filter kept).length < 2 ^ 32) (n : Nat) (page : List Nat)
    (start offset : Nat) {x : Nat} (inPage : page[offset]? = some x) (inD : D[n]? = some x) :
    searchBody index mostRecentOp accountId kept startOffset (readState kept startOffset D n page start offset false) =
      .ok (readState kept startOffset D (n + 1) page start (offset + 1) false) := by
  obtain ⟨lt, rfl⟩ := List.getElem?_eq_some_iff.1 inPage
  have store := storeOperation_readState kept startOffset D fits n page start offset false inD
  simp only [searchBody, readState] at store ⊢
  simp [lt, store]
  rfl

theorem searchBody_roll (D : List Nat) (n : Nat) (page : List Nat) (start : Nat) {back : Nat}
    (last : page.getLast? = some back) :
    searchBody index mostRecentOp accountId kept startOffset (readState kept startOffset D n page start page.length false) =
      .ok (readState kept startOffset D n page (if back ≠ 0 then back - 1 else back) 0 true) := by
  have nonempty : page ≠ [] := fun empty => by simp [empty] at last
  rw [List.getLast?_eq_getLast page nonempty, Option.some.injEq] at last
  simp [searchBody, readState, rollHistory, nonempty, last]
  rfl

theorem searchBody_emptyPage (D : List Nat) (n start : Nat) :
    searchBody index mostRecentOp accountId kept startOffset (readState kept startOffset D n [] start 0 false) =
      .ok (readState kept startOffset D n [] start 1 false) := by
  simp [searchBody, readState]
  rfl

theorem searchBody_query (D : List Nat) (n : Nat) (old page : List Nat) (start : Nat)
    (fetched : getAccountHistory index mostRecentOp accountId 0 100 start = .ok page) :
    searchBody index mostRecentOp accountId kept startOffset (readState kept startOffset D n old start 0 true) =
      searchBody index mostRecentOp accountId kept startOffset (readState kept startOffset D n page start 0 false) := by
  simp [searchBody, readState, fetched]
  rfl

end Body

section Run

variable (index : ByOpIndex) (mostRecentOp : Option Nat) (accountId : Nat) (kept : Nat → Bool)
  (startOffset limit : Nat)

theorem searchLoop_step (fuel : Nat) {s s' : SearchState}
    (body : searchBody index mostRecentOp accountId kept startOffset s = .ok s') :
    searchLoop index mostRecentOp accountId kept startOffset limit (fuel + 1) s =
      if searchContinues limit s' then searchLoop index mostRecentOp accountId kept startOffset limit fuel s'
      else .ok (some s') := by
  rw [searchLoop, body]
  rfl

theorem searchContinues_readState (D : List Nat) (n : Nat) (page : List Nat) (start offset : Nat) (query : Bool) :
    searchContinues limit (readState kept startOffset D n page start offset query) =
      decide ((((D.take n).filter kept).drop startOffset).length < limit ∧ page ≠ [] ∧ offset ≤ page.length ∧
        (offset ≠ 0 ∨ start ≠ 0)) := rfl

/-- From inside a page or at a query, the loop with enough passes stops having stored the page of what the
search reads. -/
theorem searchLoop_run (D : List Nat) (desc : D.Sorted (· > ·)) (fits : (D.filter kept).length < 2 ^ 32)
    (nextPage : ∀ n back, 0 < n → D[n - 1]? = some back → 2 ≤ back →
      getAccountHistory index mostRecentOp accountId 0 100 (back - 1) = .ok ((D.drop n).take 100))
    (fuel : Nat) :
    (∀ n page offset start, InPage D n page offset →
      (((D.take n).filter kept).drop startOffset).length < limit → 2 * (D.length - n) + 2 ≤ fuel →
      Option.map SearchState.result <$> searchLoop index mostRecentOp accountId kept startOffset limit fuel
          (readState kept startOffset D n page start offset false) =
        .ok (some ((((searchedOps D).filter kept).drop startOffset).take limit))) ∧
    (∀ n old start, AtQuery D n →
      getAccountHistory index mostRecentOp accountId 0 100 start = .ok ((D.drop n).take 100) →
      (((D.take n).filter kept).drop startOffset).length < limit → 2 * (D.length - n) + 1 ≤ fuel →
      Option.map SearchState.result <$> searchLoop index mostRecentOp accountId kept startOffset limit fuel
          (readState kept startOffset D n old start 0 true) =
        .ok (some ((((searchedOps D).filter kept).drop startOffset).take limit))) := by
  have shorter : (searchedOps D).length ≤ D.length := by rw [length_searchedOps]; split_ifs <;> omega
  have grows : ∀ n, (((D.take (n + 1)).filter kept).drop startOffset).length ≤
      (((D.take n).filter kept).drop startOffset).length + 1 := fun n => by
    rw [List.take_succ, List.filter_append]
    simp only [List.length_drop, List.length_append]
    have := List.length_filter_le kept D[n]?.toList
    have : D[n]?.toList.length ≤ 1 := by cases D[n]? <;> simp
    omega
  induction fuel with
  | zero => exact ⟨fun _ _ _ _ _ _ enough => by omega, fun _ _ _ _ _ _ enough => by omega⟩
  | succ fuel ih =>
    obtain ⟨ihPage, ihQuery⟩ := ih
    -- one pass that reads operation n, then the rest of the run
    have afterRead : ∀ n page offset start, InPage D (n + 1) page (offset + 1) →
        (((D.take n).filter kept).drop startOffset).length < limit → 2 * (D.length - n) + 1 ≤ fuel + 1 →
        Option.map SearchState.result <$>
            (if searchContinues limit (readState kept startOffset D (n + 1) page start (offset + 1) false) then
              searchLoop index mostRecentOp accountId kept startOffset limit fuel
                (readState kept startOffset D (n + 1) page start (offset + 1) false)
            else .ok (some (readState kept startOffset D (n + 1) page start (offset + 1) false))) =
          .ok (some ((((searchedOps D).filter kept).drop startOffset).take limit)) := by
      intro n page offset start next room enough
      have nonempty : page ≠ [] := fun empty => by have := next.within; simp [empty] at this
      by_cases room' : (((D.take (n + 1)).filter kept).drop startOffset).length < limit
      · rw [searchContinues_readState,
          if_pos (decide_eq_true ⟨room', nonempty, next.within, Or.inl (Nat.succ_ne_zero _)⟩)]
        exact ihPage (n + 1) page (offset + 1) start next room' (by have := next.read_le; omega)
      · rw [searchContinues_readState, if_neg fun go => room' (of_decide_eq_true go).1]
        exact congrArg (fun r => Except.ok (some r))
          (result_eq_final kept startOffset limit next.read_le (by have := grows n; omega) (Or.inl (by omega)))
    refine ⟨fun n page offset start inPage room enough => ?_, fun n old start atQuery fetched room enough => ?_⟩
    · by_cases more : offset < page.length
      · obtain ⟨x, hx⟩ : ∃ x, page[offset]? = some x := ⟨_, List.getElem?_eq_getElem more⟩
        rw [searchLoop_step index mostRecentOp accountId kept startOffset limit fuel
          (searchBody_read index mostRecentOp accountId kept startOffset D fits n page start offset hx
            (inPage.getElem? more ▸ hx))]
        exact afterRead n page offset start (inPage.next more) room (by omega)
      · obtain rfl : offset = page.length := le_antisymm inPage.within (not_lt.1 more)
        have le_read := inPage.le_read
        have started := inPage.started
        obtain ⟨back, last⟩ : ∃ back, D[n - 1]? = some back :=
          ⟨_, List.getElem?_eq_getElem (by have := inPage.read_le; omega)⟩
        rw [searchLoop_step index mostRecentOp accountId kept startOffset limit fuel
          (searchBody_roll index mostRecentOp accountId kept startOffset D n page start (inPage.getLast? ▸ last)),
          searchContinues_readState]
        by_cases above : 2 ≤ back
        · rw [if_pos (show back ≠ 0 by omega),
            if_pos (decide_eq_true ⟨room, fun empty => by simp [empty] at started, Nat.zero_le _, Or.inr (by omega)⟩)]
          exact ihQuery n page (back - 1) (inPage.rollOn last above) (nextPage n back (by omega) last above) room
            (by omega)
        · rw [if_neg fun go => by
            have := (of_decide_eq_true go).2.2.2
            split_ifs at this <;> omega]
          exact congrArg (fun r => Except.ok (some r))
            (result_eq_final kept startOffset limit inPage.read_le (by omega)
              (Or.inr (inPage.rollOff desc last (by omega))))
    · by_cases more : n < D.length
      · obtain ⟨x, hx⟩ : ∃ x, D[n]? = some x := ⟨_, List.getElem?_eq_getElem more⟩
        have first : ((D.drop n).take 100)[0]? = some x := by
          rw [page_getElem? n 0 (by simp; omega)]
          exact hx
        rw [searchLoop_step index mostRecentOp accountId kept startOffset limit fuel
          ((searchBody_query index mostRecentOp accountId kept startOffset D n old _ start fetched).trans
            (searchBody_read index mostRecentOp accountId kept startOffset D fits n _ start 0 first hx))]
        exact afterRead n _ 0 start (atQuery.first more) room (by omega)
      · rw [List.drop_eq_nil_of_le (not_lt.1 more), List.take_nil] at fetched
        rw [searchLoop_step index mostRecentOp accountId kept startOffset limit fuel
          ((searchBody_query index mostRecentOp accountId kept startOffset D n old _ start fetched).trans
            (searchBody_emptyPage index mostRecentOp accountId kept startOffset D n start)),
          searchContinues_readState, if_neg fun go => (of_decide_eq_true go).2.1 rfl]
        exact congrArg (fun r => Except.ok (some r))
          (result_eq_final kept startOffset limit atQuery.fits (by omega) (Or.inr (atQuery.done (not_lt.1 more))))

end Run

section Queries

variable (index : ByOpIndex) (recent accountId : Nat)

theorem mem_of_mem_accountOps {x : Nat} (mem : x ∈ accountOps index accountId) :
    (accountId, x) ∈ index.entries := by
  simp only [accountOps, List.mem_reverse, List.mem_map, List.mem_filter, decide_eq_true_eq] at mem
  obtain ⟨⟨a, y⟩, ⟨mem, own⟩, rfl⟩ := mem
  simp only at own
  rwa [← own]

theorem getAccountHistory_stopZero (start : Nat) (recentListed : (accountId, recent) ∈ index.entries) :
    getAccountHistory index (some recent) accountId 0 100 start =
      .ok (((accountOps index accountId).filter fun x =>
        x ≤ (if start = 0 ∨ recent < start then recent else start)).take 100) := by
  rw [getAccountHistory_eq index recent accountId 0 100 start recentListed (le_refl _)]
  simp

variable (recentListed : (accountId, recent) ∈ index.entries)
  (recentLargest : ∀ x, (accountId, x) ∈ index.entries → x ≤ recent)
include recentListed recentLargest

theorem getAccountHistory_firstPage :
    getAccountHistory index (some recent) accountId 0 100 0 = .ok (((accountOps index accountId).drop 0).take 100) := by
  rw [getAccountHistory_stopZero index recent accountId 0 recentListed, if_pos (Or.inl rfl),
    List.filter_eq_self.2 fun x mem => by simpa using recentLargest x (mem_of_mem_accountOps index accountId mem)]
  rfl

theorem getAccountHistory_nextPage (n back : Nat) (started : 0 < n)
    (last : (accountOps index accountId)[n - 1]? = some back) (above : 2 ≤ back) :
    getAccountHistory index (some recent) accountId 0 100 (back - 1) =
      .ok (((accountOps index accountId).drop n).take 100) := by
  have atMost := recentLargest back (mem_of_mem_accountOps index accountId (List.getElem?_mem last))
  have belowBack : (accountOps index accountId).filter (fun x => decide (x ≤ back - 1)) =
      (accountOps index accountId).filter (fun x => decide (x < back)) :=
    List.filter_congr fun x _ => by simp only [decide_eq_decide]; omega
  rw [getAccountHistory_stopZero index recent accountId _ recentListed, if_neg (by omega), belowBack,
    filter_lt_eq_drop (accountOps_sorted index accountId) last, Nat.sub_add_cancel started]

end Queries

theorem searchLoop_initial (index : ByOpIndex) (recent accountId : Nat) (kept : Nat → Bool)
    (startOffset limit fuel : Nat) (recentListed : (accountId, recent) ∈ index.entries)
    (recentLargest : ∀ x, (accountId, x) ∈ index.entries → x ≤ recent) (positive : 0 < limit)
    (fits : ((accountOps index accountId).filter kept).length < 2 ^ 32)
    (enough : 2 * (accountOps index accountId).length + 1 ≤ fuel) :
    Option.map SearchState.result <$>
        searchLoop index (some recent) accountId kept startOffset limit fuel SearchState.initial =
      .ok (some ((((searchedOps (accountOps index accountId)).filter kept).drop startOffset).take limit)) := by
  have initial : SearchState.initial = readState kept startOffset (accountOps index accountId) 0 [] 0 0 true := by
    simp [SearchState.initial, readState]
  rw [initial]
  exact (searchLoop_run index (some recent) accountId kept startOffset limit _ (accountOps_sorted index accountId) fits
    (fun n back started last above =>
      getAccountHistory_nextPage index recent accountId recentListed recentLargest n back started last above)
    fuel).2 0 [] 0 AtQuery.initial (getAccountHistory_firstPage index recent accountId recentListed recentLargest)
    (by simpa using positive) (by simpa using enough)

/-- search_account_balance_history, when most_recent_op names the account's largest operation and fewer than
2^32 operations pass the filter, returns the spec's page of what it reads. -/
theorem searchAccountBalanceHistory_eq (index : ByOpIndex) (recent : Nat) (views : Nat → BalanceView)
    (accountId : Nat) (assetsList : List Nat) (partnerAccountId : Option Nat) (fromBlock toBlock startOffset limit : Nat)
    (recentListed : (accountId, recent) ∈ index.entries)
    (recentLargest : ∀ x, (accountId, x) ∈ index.entries → x ≤ recent)
    (fits : ((accountOps index accountId).filter fun o =>
      balanceKept assetsList partnerAccountId fromBlock toBlock (views o)).length < 2 ^ 32) :
    searchAccountBalanceHistory index (some recent) views accountId assetsList partnerAccountId fromBlock toBlock
        startOffset limit =
      .ok (some (balancePage (searchedOps (accountOps index accountId)) views assetsList partnerAccountId fromBlock
        toBlock startOffset limit)) := by
  unfold searchAccountBalanceHistory
  split_ifs with positive
  · have fewer : (accountOps index accountId).length ≤ index.entries.length := by
      simpa [accountOps] using List.length_filter_le _ index.entries
    exact searchLoop_initial index recent accountId _ startOffset limit _ recentListed recentLargest positive fits
      (by omega)
  · simp [balancePage, show limit = 0 by omega]

/-- An index where account 1 has operations 0 to 100 and nothing else. -/
def hundredAndOne : ByOpIndex :=
  ⟨(List.range 101).map (fun x => (1, x)),
    List.pairwise_map.2 ((List.pairwise_lt_range 101).imp fun below => Or.inr ⟨rfl, below⟩)⟩

/-- Every operation of account 1 in block 1, moving one unit of asset 0. -/
def oneUnitEach : Nat → BalanceView := fun _ => ⟨1, ⟨1, 0⟩, ⟨0, 0⟩, ⟨0, 0⟩, .other, fun _ => true⟩

theorem length_kept_hundredAndOne :
    ((accountOps hundredAndOne 1).filter fun o => balanceKept [] none 0 0 (oneUnitEach o)).length < 2 ^ 32 := by
  refine (List.length_filter_le _ _).trans_lt ?_
  simp only [accountOps, hundredAndOne, List.length_reverse, List.length_map]
  exact (List.length_filter_le _ _).trans_lt (by simp)

theorem searchAccountBalanceHistory_eq_hundredAndOne :
    ((1, 100) ∈ hundredAndOne.entries ∧ (∀ x, (1, x) ∈ hundredAndOne.entries → x ≤ 100) ∧
      ((accountOps hundredAndOne 1).filter fun o => balanceKept [] none 0 0 (oneUnitEach o)).length < 2 ^ 32) ∧
      searchAccountBalanceHistory hundredAndOne (some 100) oneUnitEach 1 [] none 0 0 0 200 =
        .ok (some (balancePage (searchedOps (accountOps hundredAndOne 1)) oneUnitEach [] none 0 0 0 200)) :=
  have largest : ∀ x, (1, x) ∈ hundredAndOne.entries → x ≤ 100 := fun x mem => by
    simp [hundredAndOne] at mem
    omega
  ⟨⟨by decide, largest, length_kept_hundredAndOne⟩,
    searchAccountBalanceHistory_eq hundredAndOne 100 oneUnitEach 1 [] none 0 0 0 200 (by decide) largest
      length_kept_hundredAndOne⟩

/-- With 101 operations the first page ends at operation 1 and the loop takes the next start, 0, for the end:
operation 0 is never read. -/
theorem searchAccountBalanceHistory_missesOperationZero :
    searchAccountBalanceHistory hundredAndOne (some 100) oneUnitEach 1 [] none 0 0 0 200 =
        .ok (some ((List.range 100).map (fun x => 100 - x))) ∧
      specBalanceHistory hundredAndOne oneUnitEach 1 [] none 0 0 0 200 = (List.range 101).map (fun x => 100 - x) := by
  have largest : ∀ x, (1, x) ∈ hundredAndOne.entries → x ≤ 100 := fun x mem => by
    simp [hundredAndOne] at mem
    omega
  refine ⟨?_, rfl⟩
  unfold searchAccountBalanceHistory
  rw [if_pos (by decide), searchLoop_initial hundredAndOne 100 1 _ 0 200 _ (by decide) largest (by decide)
    length_kept_hundredAndOne (by decide)]
  rfl

end FffChain.History.BalancePages
