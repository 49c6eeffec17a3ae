/- FffChain/Message/ReceiverIndex
   source: libraries/chain/message_object.cpp, lines 42-62;
           libraries/chain/include/graphene/chain/message_object.hpp, lines 36-69
   digest: The receiver index of the message objects follows the primary index
   through inserts and removes; its modify hooks are empty, so it goes stale
   exactly when a modify changes the receivers of a message. -/

import FffChain.Authority.Types

set_option autoImplicit false
set_option relaxedAutoImplicit false

namespace FffChain.Message.ReceiverIndex

open FffChain.Authority.Types

/-- The instance of a message object's id; all message objects share the
space and type of the id. -/
abbrev ObjectId := Nat

/-- message_object_receivers_data, of which the index reads the receiver. -/
structure ReceiversData where
  receiver : AccountId
deriving DecidableEq, Repr

/-- message_object, with the fields the index and its reader use. -/
structure MessageObject where
  id : ObjectId
  sender : AccountId
  receiversData : List ReceiversData
deriving DecidableEq, Repr

/-- The accounts a message names as receivers. -/
def MessageObject.receivers (obj : MessageObject) : List AccountId :=
  obj.receiversData.map (·.receiver)

/-- message_receiver_index::message_to_receiver_memberships, a map from an
account to a set of ids; an account with no entry reads as the empty set. -/
abbrev Memberships := AccountId → FlatSet

/-! ## The hooks of message_receiver_index -/

/-- message_receiver_index::object_inserted: the id is added under each receiver. -/
def objectInserted (memberships : Memberships) (obj : MessageObject) : Memberships :=
  obj.receiversData.foldl
    (fun m item => Function.update m item.receiver ((m item.receiver).insert obj.id)) memberships

/-- message_receiver_index::object_removed: the id is erased under each receiver. -/
def objectRemoved (memberships : Memberships) (obj : MessageObject) : Memberships :=
  obj.receiversData.foldl
    (fun m item => Function.update m item.receiver ((m item.receiver).erase obj.id)) memberships

/-- message_receiver_index::about_to_modify has an empty body. -/
def aboutToModify (memberships : Memberships) (_before : MessageObject) : Memberships :=
  memberships

/-- message_receiver_index::object_modified has an empty body. -/
def objectModified (memberships : Memberships) (_after : MessageObject) : Memberships :=
  memberships

@[simp] theorem mem_objectInserted (memberships : Memberships) (obj : MessageObject)
    (r : AccountId) (id : ObjectId) :
    id ∈ objectInserted memberships obj r ↔ id ∈ memberships r ∨ id = obj.id ∧ r ∈ obj.receivers := by
  unfold objectInserted MessageObject.receivers
  generalize obj.receiversData = items
  induction items generalizing memberships with
  | nil => simp
  | cons item items ih =>
    rw [List.foldl_cons, ih]
    by_cases h : r = item.receiver
    · subst h; simp only [Function.update_same, FlatSet.mem_insert, List.map_cons,
        List.mem_cons, true_or, and_true]; tauto
    · simp only [Function.update_noteq h, List.map_cons, List.mem_cons, h, false_or]

@[simp] theorem mem_objectRemoved (memberships : Memberships) (obj : MessageObject)
    (r : AccountId) (id : ObjectId) :
    id ∈ objectRemoved memberships obj r ↔
      id ∈ memberships r ∧ ¬(id = obj.id ∧ r ∈ obj.receivers) := by
  unfold objectRemoved MessageObject.receivers
  generalize obj.receiversData = items
  induction items generalizing memberships with
  | nil => simp
  | cons item items ih =>
    rw [List.foldl_cons, ih]
    by_cases h : r = item.receiver
    · subst h; simp only [Function.update_same, FlatSet.mem_erase, List.map_cons,
        List.mem_cons, true_or, and_true]; tauto
    · simp only [Function.update_noteq h, List.map_cons, List.mem_cons, h, false_or]

/-! ## The message index and its mutations -/

/-- The message index: the primary index by id and its receiver index. -/
structure MessageIndex where
  objects : ObjectId → Option MessageObject
  memberships : Memberships

/-- The index before any message exists. -/
def MessageIndex.empty : MessageIndex := ⟨fun _ => none, fun _ => FlatSet.empty⟩

/-- A mutation of the primary index: an insert, a remove, or a modify by the image it leaves; undo replays the
same three kinds. -/
inductive Mutation where
  | insert (obj : MessageObject)
  | remove (id : ObjectId)
  | modify (obj : MessageObject)
deriving DecidableEq, Repr

/-- Modelled from the spec (graphene/db/index.hpp is not in the sources): each mutation with its hooks; a taken
id on insert, or an absent one on remove or modify, throws and changes nothing. -/
def MessageIndex.apply (s : MessageIndex) : Mutation → Option MessageIndex
  | .insert obj =>
    match s.objects obj.id with
    | none => some ⟨Function.update s.objects obj.id (some obj), objectInserted s.memberships obj⟩
    | some _ => none
  | .remove id =>
    match s.objects id with
    | some obj => some ⟨Function.update s.objects id none, objectRemoved s.memberships obj⟩
    | none => none
  | .modify obj =>
    match s.objects obj.id with
    | some before => some ⟨Function.update s.objects obj.id (some obj),
        objectModified (aboutToModify s.memberships before) obj⟩
    | none => none

section Inversion
variable {s s' : MessageIndex}

theorem apply_insert {obj : MessageObject} (ok : s.apply (.insert obj) = some s') :
    s.objects obj.id = none ∧
      s' = ⟨Function.update s.objects obj.id (some obj), objectInserted s.memberships obj⟩ := by
  simp only [MessageIndex.apply] at ok
  split at ok
  · exact ⟨‹_›, (Option.some.inj ok).symm⟩
  · cases ok

theorem apply_remove {id : ObjectId} (ok : s.apply (.remove id) = some s') :
    ∃ obj, s.objects id = some obj ∧
      s' = ⟨Function.update s.objects id none, objectRemoved s.memberships obj⟩ := by
  simp only [MessageIndex.apply] at ok
  split at ok
  · exact ⟨_, ‹_›, (Option.some.inj ok).symm⟩
  · cases ok

theorem apply_modify {obj : MessageObject} (ok : s.apply (.modify obj) = some s') :
    ∃ before, s.objects obj.id = some before ∧ s' = ⟨Function.update s.objects obj.id (some obj),
      objectModified (aboutToModify s.memberships before) obj⟩ := by
  simp only [MessageIndex.apply] at ok
  split at ok
  · exact ⟨_, ‹_›, (Option.some.inj ok).symm⟩
  · cases ok

end Inversion

/-- The states reached from the empty index by mutations that each satisfy
`allowed` in the state they start from. -/
inductive Reachable (allowed : MessageIndex → Mutation → Prop) : MessageIndex → Prop
  | empty : Reachable allowed MessageIndex.empty
  | step {s s' : MessageIndex} {m : Mutation} : Reachable allowed s → allowed s m →
      s.apply m = some s' → Reachable allowed s'

/-! ## When the receiver index is in step with the primary index -/

/-- The receiver index agrees with the primary index: messages stored under their ids, and an account's listed
ids those of the live messages naming it. -/
structure Synced (s : MessageIndex) : Prop where
  keyed : ∀ id obj, s.objects id = some obj → obj.id = id
  listed : ∀ r id, id ∈ s.memberships r ↔ ∃ obj, s.objects id = some obj ∧ r ∈ obj.receivers

/-- A modify that leaves the receivers of the message as they were; every
insert and remove qualifies. -/
def KeepsReceivers (s : MessageIndex) : Mutation → Prop
  | .modify obj => ∀ before, s.objects obj.id = some before →
      ∀ r, r ∈ before.receivers ↔ r ∈ obj.receivers
  | _ => True

theorem synced_empty : Synced MessageIndex.empty :=
  ⟨fun _ _ h => (nomatch h), fun _ _ => by simp [MessageIndex.empty]⟩

section Step
variable {s s' : MessageIndex} (synced : Synced s)
include synced

theorem synced_insert {obj : MessageObject} (ok : s.apply (.insert obj) = some s') : Synced s' := by
  obtain ⟨fresh, rfl⟩ := apply_insert ok
  refine ⟨fun id o h => ?_, fun r id => ?_⟩
  · by_cases e : id = obj.id
    · subst e; simp only [Function.update_same, Option.some.injEq] at h; exact h ▸ rfl
    · simp only [Function.update_noteq e] at h; exact synced.keyed id o h
  · by_cases e : id = obj.id
    · subst e
      have absent : obj.id ∉ s.memberships r := fun mem => by
        obtain ⟨_, h, -⟩ := (synced.listed r obj.id).mp mem
        rw [fresh] at h; cases h
      simp [absent]
    · simp [Function.update_noteq e, e, synced.listed r id]

theorem synced_remove {id : ObjectId} (ok : s.apply (.remove id) = some s') : Synced s' := by
  obtain ⟨obj, live, rfl⟩ := apply_remove ok
  have own := synced.keyed id obj live
  refine ⟨fun j o h => ?_, fun r j => ?_⟩
  · by_cases e : j = id
    · subst e; simp at h
    · simp only [Function.update_noteq e] at h; exact synced.keyed j o h
  · by_cases e : j = id
    · subst e
      simp only [mem_objectRemoved, Function.update_same]
      constructor
      · rintro ⟨mem, notBoth⟩
        obtain ⟨o, h, listed⟩ := (synced.listed r j).mp mem
        obtain rfl : obj = o := by rw [live] at h; exact Option.some.inj h
        exact absurd ⟨own.symm, listed⟩ notBoth
      · rintro ⟨_, h, -⟩; cases h
    · simp only [mem_objectRemoved, synced.listed r, Function.update_noteq e]
      exact ⟨fun h => h.1, fun h => ⟨h, fun c => e (c.1.trans own)⟩⟩

theorem synced_modify {obj : MessageObject} (ok : s.apply (.modify obj) = some s')
    (keeps : KeepsReceivers s (.modify obj)) : Synced s' := by
  obtain ⟨before, live, rfl⟩ := apply_modify ok
  refine ⟨fun id o h => ?_, fun r id => ?_⟩
  · by_cases e : id = obj.id
    · subst e; simp only [Function.update_same, Option.some.injEq] at h; exact h ▸ rfl
    · simp only [Function.update_noteq e] at h; exact synced.keyed id o h
  · simp only [objectModified, aboutToModify, synced.listed r id]
    by_cases e : id = obj.id
    · subst e; simp [live, keeps before live r]
    · simp [Function.update_noteq e]

/-- One step keeps the indexes in step, unless it is a modify that changes
the receivers of a message. -/
theorem synced_apply {m : Mutation} (keeps : KeepsReceivers s m) (ok : s.apply m = some s') :
    Synced s' := by
  cases m with
  | insert obj => exact synced_insert synced ok
  | remove id => exact synced_remove synced ok
  | modify obj => exact synced_modify synced ok keeps

end Step

/-- Message 0, from account 1 to account 2, inserted into the empty index. -/
def oneMessage : MessageIndex :=
  ⟨Function.update (fun _ => none) 0 (some ⟨0, 1, [⟨2⟩]⟩), objectInserted (fun _ => FlatSet.empty) ⟨0, 1, [⟨2⟩]⟩⟩

theorem synced_oneMessage : Synced oneMessage := @synced_insert _ _ synced_empty ⟨0, 1, [⟨2⟩]⟩ rfl

/-- The receiver index never goes stale along a run whose modifies keep the
receivers of the messages they change, undo replays included. -/
theorem reachable_synced {s : MessageIndex} (reach : Reachable KeepsReceivers s) : Synced s := by
  induction reach with
  | empty => exact synced_empty
  | step _ keeps ok ih => exact synced_apply ih keeps ok

theorem reachable_synced_oneMessage :
    Reachable KeepsReceivers ⟨Function.update (fun _ => none) 0 (some ⟨0, 1, [⟨2⟩]⟩),
      objectInserted (fun _ => FlatSet.empty) ⟨0, 1, [⟨2⟩]⟩⟩ ∧
    Synced ⟨Function.update (fun _ => none) 0 (some ⟨0, 1, [⟨2⟩]⟩),
      objectInserted (fun _ => FlatSet.empty) ⟨0, 1, [⟨2⟩]⟩⟩ :=
  ⟨@Reachable.step _ _ _ (.insert ⟨0, 1, [⟨2⟩]⟩) .empty trivial rfl,
    reachable_synced (@Reachable.step _ _ _ (.insert ⟨0, 1, [⟨2⟩]⟩) .empty trivial rfl)⟩

/-- A modify that drops the only receiver of a message leaves its id listed
under that receiver. -/
theorem reachable_stale :
    ∃ s, Reachable (fun _ _ => True) s ∧ 0 ∈ s.memberships 2 ∧
      ∀ obj, s.objects 0 = some obj → 2 ∉ obj.receivers :=
  ⟨_, @Reachable.step _ ⟨Function.update (fun _ => none) 0 (some ⟨0, 1, [⟨2⟩]⟩),
      objectInserted (fun _ => FlatSet.empty) ⟨0, 1, [⟨2⟩]⟩⟩ _ (.modify ⟨0, 1, []⟩)
    (@Reachable.step _ _ _ (.insert ⟨0, 1, [⟨2⟩]⟩) .empty trivial rfl) trivial rfl,
    by decide, fun obj h => by
      simp only [Function.update_same, Option.some.injEq] at h
      simp [← h, MessageObject.receivers]⟩

end FffChain.Message.ReceiverIndex
