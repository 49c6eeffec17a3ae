/- FffChain/Message/MessageQueries
   source: libraries/app/api.cpp, lines 464-539
   digest: messaging_api::get_message_objects answers a query for a receiver
   through the receiver index and a query for a sender alone through the
   by_sender index. When the receiver index agrees with the primary index, the
   receiver query returns the newest max_count live messages to the receiver
   (from the sender, when one is given), newest first; the sender query returns
   the last max_count of the sender's messages in by_sender order. -/

import FffChain.Message.ReceiverIndex

set_option autoImplicit false
set_option relaxedAutoImplicit false

namespace FffChain.Message.MessageQueries

open FffChain.Authority.Types FffChain.Message.ReceiverIndex

/-- The exceptions get_message_objects throws besides
database_not_available_exception. -/
inductive MessagingError where
  /-- at_least_one_account_needs_to_be_specified_exception. -/
  | atLeastOneAccountNeedsToBeSpecified
  /-- account_does_not_exist_exception, rewrapped with "Receiver account: ${receiver}". -/
  | receiverAccountDoesNotExist (receiver : AccountId)
  /-- account_does_not_exist_exception, rewrapped with "Sender account: ${sender}". -/
  | senderAccountDoesNotExist (sender : AccountId)
deriving DecidableEq, Repr

/-- find_message_objects over ids, largest first: while max_count is positive, each live id whose sender passes
cmp is pushed and max_count goes down. -/
def findMessageObjects (objects : ObjectId → Option MessageObject) (cmp : AccountId → Bool) :
    List ObjectId → Nat → List MessageObject
  | [], _ => []
  | _ :: _, 0 => []
  | id :: ids, maxCount + 1 =>
    match objects id with
    | some msg =>
      if cmp msg.sender then msg :: findMessageObjects objects cmp ids maxCount
      else findMessageObjects objects cmp ids (maxCount + 1)
    | none => findMessageObjects objects cmp ids (maxCount + 1)

/-- The elements of by_sender_idx.equal_range(sender): from lower_bound to
upper_bound of the sender, positions counted from begin(). -/
def equalRange (bySender : List MessageObject) (sender : AccountId) : List MessageObject :=
  (bySender.take (bySender.takeWhile fun m => decide (m.sender ≤ sender)).length).drop
    (bySender.takeWhile fun m => decide (m.sender < sender)).length

/-- The loop over the range: while it is not empty and max_count-- > 0, push
*(--range.second). Its argument is the range from its last element back. -/
def bySenderLoop : List MessageObject → Nat → List MessageObject
  | [], _ => []
  | _ :: _, 0 => []
  | m :: earlier, maxCount + 1 => m :: bySenderLoop earlier maxCount

/-- messaging_api::get_message_objects(sender, receiver, max_count); `hasEntry` says whether the memberships
map has a key for an account, and `bySender` is the by_sender index. -/
def getMessageObjects (s : MessageIndex) (hasEntry : AccountId → Bool) (bySender : List MessageObject)
    (accountExists : AccountId → Bool) (sender receiver : Option AccountId) (maxCount : Nat) :
    Except MessagingError (List MessageObject) :=
  if sender.isNone ∧ receiver.isNone then .error .atLeastOneAccountNeedsToBeSpecified
  else
    match receiver with
    | some r =>
      if accountExists r then
        if hasEntry r then
          match sender with
          | some a =>
            if accountExists a then
              .ok (findMessageObjects s.objects (fun x => decide (x = a)) (s.memberships r).elems.reverse maxCount)
            else .error (.senderAccountDoesNotExist a)
          | none => .ok (findMessageObjects s.objects (fun _ => true) (s.memberships r).elems.reverse maxCount)
        else .ok []
      else .error (.receiverAccountDoesNotExist r)
    | none =>
      match sender with
      | some a =>
        if accountExists a then .ok (bySenderLoop (equalRange bySender a).reverse maxCount)
        else .error (.senderAccountDoesNotExist a)
      | none => .ok []

/-- An answer for the newest messages: live kept messages, newest first, at most max_count, and no kept live
message left out unless the answer is full of newer ones. -/
structure NewestAnswer (s : MessageIndex) (keep : MessageObject → Prop) (maxCount : Nat)
    (answer : List MessageObject) : Prop where
  live : ∀ m ∈ answer, s.objects m.id = some m ∧ keep m
  newestFirst : answer.Sorted fun a b => b.id < a.id
  bounded : answer.length ≤ maxCount
  complete : ∀ m, s.objects m.id = some m → keep m → m ∉ answer →
    answer.length = maxCount ∧ ∀ a ∈ answer, m.id < a.id

theorem NewestAnswer.congr {s : MessageIndex} {keep keep' : MessageObject → Prop} {maxCount : Nat}
    {answer : List MessageObject} (same : ∀ m, keep m ↔ keep' m) (newest : NewestAnswer s keep maxCount answer) :
    NewestAnswer s keep' maxCount answer :=
  ⟨fun m mem => ⟨(newest.live m mem).1, (same m).1 (newest.live m mem).2⟩, newest.newestFirst, newest.bounded,
    fun m live keep => newest.complete m live ((same m).2 keep)⟩

theorem findMessageObjects_eq (objects : ObjectId → Option MessageObject) (cmp : AccountId → Bool)
    (ids : List ObjectId) (maxCount : Nat) :
    findMessageObjects objects cmp ids maxCount = ((ids.filterMap objects).filter fun m => cmp m.sender).take maxCount := by
  induction ids generalizing maxCount with
  | nil => cases maxCount <;> rfl
  | cons id ids ih =>
    cases maxCount with
    | zero => rfl
    | succ maxCount =>
      rw [findMessageObjects, List.filterMap_cons]
      cases objects id with
      | none => exact ih _
      | some msg =>
        by_cases kept : cmp msg.sender <;> simp [kept, ih]

private theorem take_full_of_not_mem {L : List MessageObject} (desc : L.Sorted fun a b => b.id < a.id)
    {m : MessageObject} (mem : m ∈ L) (n : Nat) (left : m ∉ L.take n) :
    (L.take n).length = n ∧ ∀ a ∈ L.take n, m.id < a.id := by
  have split := List.take_append_drop n L
  have later : m ∈ L.drop n := by
    rw [← split] at mem
    exact (List.mem_append.1 mem).resolve_left left
  refine ⟨?_, fun a taken => ?_⟩
  · by_contra short
    rw [List.take_of_length_le (by rw [List.length_take] at short; omega)] at left
    exact left mem
  · rw [← split] at desc
    exact (List.pairwise_append.1 desc).2.2 a taken m later

section Receiver

variable {s : MessageIndex} (synced : Synced s)
include synced

private theorem mem_listed (r : AccountId) (m : MessageObject) :
    m ∈ (s.memberships r).elems.reverse.filterMap s.objects ↔ s.objects m.id = some m ∧ r ∈ m.receivers := by
  simp only [List.mem_filterMap, List.mem_reverse, FlatSet.mem_elems, synced.listed]
  constructor
  · rintro ⟨id, ⟨obj, live, named⟩, found⟩
    rw [live, Option.some.injEq] at found
    subst found
    rw [synced.keyed id obj live]
    exact ⟨live, named⟩
  · rintro ⟨live, named⟩
    exact ⟨m.id, ⟨m, live, named⟩, live⟩

private theorem listed_newestFirst (r : AccountId) :
    ((s.memberships r).elems.reverse.filterMap s.objects).Sorted fun a b => b.id < a.id := by
  refine (List.pairwise_reverse.2 (s.memberships r).sorted).filterMap _ fun id id' above a found b found' => ?_
  rw [synced.keyed id a found, synced.keyed id' b found']
  exact above

private theorem findMessageObjects_newest (r : AccountId) (cmp : AccountId → Bool) (maxCount : Nat) :
    NewestAnswer s (fun m => r ∈ m.receivers ∧ cmp m.sender = true) maxCount
      (findMessageObjects s.objects cmp (s.memberships r).elems.reverse maxCount) := by
  rw [findMessageObjects_eq]
  have sorted := (listed_newestFirst synced r).filter fun m => cmp m.sender
  refine ⟨fun m taken => ?_, sorted.sublist (List.take_sublist _ _), List.length_take_le _ _,
    fun m live keep left => take_full_of_not_mem sorted ?_ maxCount left⟩
  · obtain ⟨listed, kept⟩ := List.mem_filter.1 (List.mem_of_mem_take taken)
    obtain ⟨live, named⟩ := (mem_listed synced r m).1 listed
    exact ⟨live, named, kept⟩
  · exact List.mem_filter.2 ⟨(mem_listed synced r m).2 ⟨live, keep.1⟩, keep.2⟩

end Receiver

/-- For an existing receiver (and sender when given), on an index in step, get_message_objects returns the
newest max_count live messages to the receiver from the sender, newest first. -/
theorem getMessageObjects_newestToReceiver (s : MessageIndex) (synced : Synced s) (hasEntry : AccountId → Bool)
    (entries : ∀ r id, id ∈ s.memberships r → hasEntry r = true) (bySender : List MessageObject)
    (accountExists : AccountId → Bool) (sender : Option AccountId) (receiver : AccountId) (maxCount : Nat)
    (receiverExists : accountExists receiver = true) (senderExists : ∀ a, sender = some a → accountExists a = true) :
    ∃ answer, getMessageObjects s hasEntry bySender accountExists sender (some receiver) maxCount = .ok answer ∧
      NewestAnswer s (fun m => receiver ∈ m.receivers ∧ ∀ a, sender = some a → m.sender = a) maxCount answer := by
  by_cases listed : hasEntry receiver = true
  · cases sender with
    | none =>
      exact ⟨_, by simp [getMessageObjects, receiverExists, listed],
        (findMessageObjects_newest synced receiver (fun _ => true) maxCount).congr fun m => by simp⟩
    | some a =>
      exact ⟨_, by simp [getMessageObjects, receiverExists, listed, senderExists a rfl],
        (findMessageObjects_newest synced receiver (fun x => decide (x = a)) maxCount).congr fun m => by simp⟩
  · have unlisted : hasEntry receiver = false := by simpa using listed
    refine ⟨[], by cases sender <;> simp [getMessageObjects, receiverExists, unlisted], ⟨by simp, by simp, by simp,
      fun m live keep _ => absurd (entries receiver m.id ((synced.listed receiver m.id).2 ⟨m, live, keep.1⟩)) listed⟩⟩

/-- Account 2's messages from account 1, at most 5 of them. -/
theorem getMessageObjects_newestToReceiver_oneMessage :
    (Synced oneMessage ∧ (∀ r id, id ∈ oneMessage.memberships r → decide (r = 2) = true) ∧
      (fun _ => true : AccountId → Bool) 2 = true ∧ ∀ a, some 1 = some a → (fun _ => true : AccountId → Bool) a = true) ∧
    ∃ answer, getMessageObjects oneMessage (fun r => decide (r = 2)) [] (fun _ => true) (some 1) (some 2) 5 = .ok answer ∧
      NewestAnswer oneMessage (fun m => 2 ∈ m.receivers ∧ ∀ a, some 1 = some a → m.sender = a) 5 answer :=
  have entries : ∀ r id, id ∈ oneMessage.memberships r → decide (r = 2) = true := fun r id mem => by
    simp only [oneMessage, mem_objectInserted, FlatSet.not_mem_empty, false_or] at mem
    simpa [MessageObject.receivers] using mem.2
  ⟨⟨synced_oneMessage, entries, rfl, fun _ _ => rfl⟩,
    getMessageObjects_newestToReceiver oneMessage synced_oneMessage _ entries [] _ (some 1) 2 5 rfl fun _ _ => rfl⟩

/-- The by_sender index of a message index: its live messages, each once,
ordered by sender. -/
structure BySenderIndex (s : MessageIndex) (bySender : List MessageObject) : Prop where
  ordered : bySender.Sorted fun a b => a.sender ≤ b.sender
  live : ∀ m, m ∈ bySender ↔ s.objects m.id = some m
  nodup : bySender.Nodup

private theorem equalRange_eq_filter {bySender : List MessageObject}
    (ordered : bySender.Sorted fun a b => a.sender ≤ b.sender) (sender : AccountId) :
    equalRange bySender sender = bySender.filter fun m => m.sender = sender := by
  induction bySender with
  | nil => rfl
  | cons x xs ih =>
    have later : ∀ y ∈ xs, x.sender ≤ y.sender := List.rel_of_sorted_cons ordered
    have tail := ih ordered.of_cons
    unfold equalRange at tail ⊢
    rcases Nat.lt_trichotomy x.sender sender with below | same | above
    · have upTo : (x :: xs).takeWhile (fun m => decide (m.sender ≤ sender)) =
          x :: xs.takeWhile (fun m => decide (m.sender ≤ sender)) := List.takeWhile_cons_of_pos (by simpa using below.le)
      have under : (x :: xs).takeWhile (fun m => decide (m.sender < sender)) =
          x :: xs.takeWhile (fun m => decide (m.sender < sender)) := List.takeWhile_cons_of_pos (by simpa using below)
      rw [upTo, under, List.length_cons, List.length_cons, List.take_succ_cons, List.drop_succ_cons, tail,
        List.filter_cons_of_neg (by simpa using below.ne)]
    · have upTo : (x :: xs).takeWhile (fun m => decide (m.sender ≤ sender)) =
          x :: xs.takeWhile (fun m => decide (m.sender ≤ sender)) := List.takeWhile_cons_of_pos (by simp [same])
      have under : (x :: xs).takeWhile (fun m => decide (m.sender < sender)) = [] :=
        List.takeWhile_cons_of_neg (by simp [same])
      have noneBelow : xs.takeWhile (fun m => decide (m.sender < sender)) = [] :=
        List.takeWhile_eq_nil_iff.2 fun nonempty => by
          simpa [same] using later _ (List.getElem_mem nonempty)
      rw [noneBelow, List.length_nil, List.drop_zero] at tail
      rw [upTo, under, List.length_cons, List.length_nil, List.drop_zero, List.take_succ_cons, tail,
        List.filter_cons_of_pos (by simp [same])]
    · have upTo : (x :: xs).takeWhile (fun m => decide (m.sender ≤ sender)) = [] :=
        List.takeWhile_cons_of_neg (by simpa using above)
      rw [upTo, List.length_nil, List.take_zero, List.drop_nil]
      refine (List.filter_eq_nil_iff.2 fun y mem => ?_).symm
      rcases List.mem_cons.1 mem with rfl | inXs
      · simpa using above.ne'
      · simpa using (above.trans_le (later y inXs)).ne'

private theorem bySenderLoop_eq_take (walked : List MessageObject) (maxCount : Nat) :
    bySenderLoop walked maxCount = walked.take maxCount := by
  induction walked generalizing maxCount with
  | nil => cases maxCount <;> rfl
  | cons m earlier ih => cases maxCount <;> simp [bySenderLoop, ih]

/-- For an existing sender alone, get_message_objects returns the last max_count of the sender's messages in
by_sender order, last first, all live and each once. -/
theorem getMessageObjects_lastFromSender (s : MessageIndex) (hasEntry : AccountId → Bool) (bySender : List MessageObject)
    (index : BySenderIndex s bySender) (accountExists : AccountId → Bool) (sender : AccountId) (maxCount : Nat)
    (senderExists : accountExists sender = true) :
    getMessageObjects s hasEntry bySender accountExists (some sender) none maxCount =
        .ok ((bySender.filter fun m => m.sender = sender).reverse.take maxCount) ∧
      ((bySender.filter fun m => m.sender = sender).reverse.take maxCount).Nodup ∧
      ∀ m ∈ (bySender.filter fun m => m.sender = sender).reverse.take maxCount,
        s.objects m.id = some m ∧ m.sender = sender := by
  refine ⟨?_, (List.nodup_reverse.2 (index.nodup.filter _)).sublist (List.take_sublist _ _), fun m taken => ?_⟩
  · simp [getMessageObjects, senderExists, equalRange_eq_filter index.ordered, bySenderLoop_eq_take]
  · have := List.mem_reverse.1 (List.mem_of_mem_take taken)
    obtain ⟨inIndex, own⟩ := List.mem_filter.1 this
    exact ⟨(index.live m).1 inIndex, by simpa using own⟩

/-- Account 1's messages, at most 5, on the index holding message 0 alone. -/
theorem getMessageObjects_lastFromSender_oneMessage :
    BySenderIndex oneMessage [⟨0, 1, [⟨2⟩]⟩] ∧ (fun _ => true : AccountId → Bool) 1 = true ∧
      (getMessageObjects oneMessage (fun r => decide (r = 2)) [⟨0, 1, [⟨2⟩]⟩] (fun _ => true) (some 1) none 5 =
          .ok (([⟨0, 1, [⟨2⟩]⟩].filter fun m : MessageObject => m.sender = 1).reverse.take 5) ∧
        (([⟨0, 1, [⟨2⟩]⟩].filter fun m : MessageObject => m.sender = 1).reverse.take 5).Nodup ∧
        ∀ m ∈ ([⟨0, 1, [⟨2⟩]⟩].filter fun m : MessageObject => m.sender = 1).reverse.take 5,
          oneMessage.objects m.id = some m ∧ m.sender = 1) :=
  have index : BySenderIndex oneMessage [⟨0, 1, [⟨2⟩]⟩] := by
    refine ⟨List.sorted_singleton _, fun m => ?_, List.nodup_singleton _⟩
    by_cases zero : m.id = 0
    · simp only [oneMessage, zero, Function.update_same, Option.some.injEq, List.mem_singleton]
      exact eq_comm
    · simp only [oneMessage, Function.update_noteq zero, List.mem_singleton]
      exact ⟨fun same => absurd (same ▸ rfl : m.id = 0) zero, fun h => nomatch h⟩
  ⟨index, rfl, getMessageObjects_lastFromSender oneMessage _ _ index _ 1 5 rfl⟩

end FffChain.Message.MessageQueries
