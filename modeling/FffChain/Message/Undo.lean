/- FffChain/Message/Undo
   source: libraries/db/object_database.cpp, lines 124-137 (save_undo,
           save_undo_add, save_undo_remove); spec, Undo/Session
   digest: An undo session records, for each mutation of the message index,
   the mutation that reverses it, and undo replays the record newest first.
   Replay always gives the primary index back; it gives the receiver index
   back when every modify of the session keeps the receivers of its message,
   and not otherwise. -/

import FffChain.Message.ReceiverIndex

set_option autoImplicit false
set_option relaxedAutoImplicit false

namespace FffChain.Message.Undo

open FffChain.Authority.Types FffChain.Message.ReceiverIndex

/-- Modelled from the spec (undo_database is not in the sources): each mutation records its reverse. The spec's
record reads both per mutation and per mutated object; this is the per-mutation reading, so a remove after a
modify re-inserts the removal-time image, which replay_keepsAddedReceiver depends on. -/
def inverse (s : MessageIndex) : Mutation → Option Mutation
  | .insert obj => some (.remove obj.id)
  | .remove id => (s.objects id).map .insert
  | .modify obj => (s.objects obj.id).map .modify

/-- Modelled from the spec: undo replays the recorded mutations in reverse
order of application, the newest first; none when one of them throws. -/
def replay : MessageIndex → List Mutation → Option MessageIndex
  | s, [] => some s
  | s, m :: log => (s.apply m).bind (replay · log)

/-- A session from s₀: the index it has reached and the undo record, newest
first, of mutations that each satisfy `allowed` where they apply. -/
inductive Recorded (allowed : MessageIndex → Mutation → Prop) (s₀ : MessageIndex) :
    MessageIndex → List Mutation → Prop
  | start : Recorded allowed s₀ s₀ []
  | step {s s' : MessageIndex} {m inv : Mutation} {log : List Mutation} :
      Recorded allowed s₀ s log → allowed s m → s.apply m = some s' → inverse s m = some inv →
      Recorded allowed s₀ s' (inv :: log)

/-- Every message of the primary index is stored under its own id. -/
def Keyed (s : MessageIndex) : Prop :=
  ∀ id obj, s.objects id = some obj → obj.id = id

section Step

variable {s s' : MessageIndex} {m inv : Mutation}

theorem apply_insert_of_fresh {obj : MessageObject} (fresh : s.objects obj.id = none) :
    s.apply (.insert obj) = some ⟨Function.update s.objects obj.id (some obj), objectInserted s.memberships obj⟩ := by
  simp [MessageIndex.apply, fresh]

theorem apply_remove_of_live {id : ObjectId} {obj : MessageObject} (live : s.objects id = some obj) :
    s.apply (.remove id) = some ⟨Function.update s.objects id none, objectRemoved s.memberships obj⟩ := by
  simp [MessageIndex.apply, live]

theorem apply_modify_of_live {obj before : MessageObject} (live : s.objects obj.id = some before) :
    s.apply (.modify obj) = some ⟨Function.update s.objects obj.id (some obj),
      objectModified (aboutToModify s.memberships before) obj⟩ := by
  simp [MessageIndex.apply, live]

theorem keyed_update (keyed : Keyed s) (id : ObjectId) (entry : Option MessageObject)
    (own : ∀ obj, entry = some obj → obj.id = id) (memberships : Memberships) :
    Keyed ⟨Function.update s.objects id entry, memberships⟩ := fun j o found => by
  by_cases e : j = id
  · subst e; exact own o (by simpa using found)
  · simp only [Function.update_noteq e] at found; exact keyed j o found

theorem keyed_apply (keyed : Keyed s) (ok : s.apply m = some s') : Keyed s' := by
  cases m with
  | insert new =>
    obtain ⟨-, rfl⟩ := apply_insert ok
    exact keyed_update keyed _ _ (fun _ stored => Option.some.inj stored ▸ rfl) _
  | remove gone =>
    obtain ⟨obj, -, rfl⟩ := apply_remove ok
    exact keyed_update keyed _ none (fun _ stored => nomatch stored) _
  | modify new =>
    obtain ⟨_, -, rfl⟩ := apply_modify ok
    exact keyed_update keyed _ _ (fun _ stored => Option.some.inj stored ▸ rfl) _

theorem apply_objects_congr {t : MessageIndex} (same : s.objects = t.objects) (m : Mutation) :
    (s.apply m).map MessageIndex.objects = (t.apply m).map MessageIndex.objects := by
  cases m <;> simp only [MessageIndex.apply, same] <;> split <;> rfl

/-- Undoing one mutation of a keyed index succeeds and gives the primary index
back; it gives the receiver index back too when that was in step. -/
theorem apply_inverse (keyed : Keyed s) (ok : s.apply m = some s') (recorded : inverse s m = some inv) :
    ∃ t, s'.apply inv = some t ∧ t.objects = s.objects ∧ (Synced s → t.memberships = s.memberships) := by
  cases m with
  | insert obj =>
    obtain ⟨fresh, rfl⟩ := apply_insert ok
    cases recorded
    refine ⟨_, apply_remove_of_live (Function.update_same _ _ _), ?_, fun synced => ?_⟩
    · rw [Function.update_idem, ← fresh, Function.update_eq_self]
    · funext r
      ext x
      have unlisted : obj.id ∉ s.memberships r := fun mem => by
        obtain ⟨_, found, -⟩ := (synced.listed r obj.id).1 mem
        rw [fresh] at found; cases found
      by_cases e : x = obj.id
      · subst e; simp [unlisted]
      · simp [e]
  | remove id =>
    obtain ⟨obj, live, rfl⟩ := apply_remove ok
    simp only [inverse, live, Option.map_some', Option.some.injEq] at recorded
    subst recorded
    obtain rfl := keyed id obj live
    refine ⟨_, apply_insert_of_fresh (Function.update_same _ _ _), ?_, fun synced => ?_⟩
    · rw [Function.update_idem, ← live, Function.update_eq_self]
    · funext r
      ext x
      by_cases e : x = obj.id ∧ r ∈ obj.receivers
      · obtain ⟨rfl, named⟩ := e
        simp [named, (synced.listed r obj.id).2 ⟨obj, live, named⟩]
      · simp [e]
  | modify obj =>
    obtain ⟨before, live, rfl⟩ := apply_modify ok
    simp only [inverse, live, Option.map_some', Option.some.injEq] at recorded
    subst recorded
    have own := keyed obj.id before live
    refine ⟨_, apply_modify_of_live (by rw [own]; exact Function.update_same _ _ _), ?_, fun _ => rfl⟩
    rw [own, Function.update_idem, ← live, Function.update_eq_self]

end Step

theorem replay_objects_congr {s t : MessageIndex} (same : s.objects = t.objects) (log : List Mutation) :
    (replay s log).map MessageIndex.objects = (replay t log).map MessageIndex.objects := by
  induction log generalizing s t with
  | nil => simp [replay, same]
  | cons m log ih =>
    have applied := apply_objects_congr same m
    simp only [replay]
    cases hs : s.apply m <;> cases ht : t.apply m <;> rw [hs, ht] at applied <;> simp at applied ⊢
    exact ih applied

/-- Undo of a session from a keyed index succeeds and gives the primary index back, whatever the mutations do. -/
theorem replay_restoresObjects (s₀ s : MessageIndex) (log : List Mutation) (keyed : Keyed s₀)
    (run : Recorded (fun _ _ => True) s₀ s log) : ∃ t, replay s log = some t ∧ t.objects = s₀.objects := by
  have both : Keyed s ∧ ∃ t, replay s log = some t ∧ t.objects = s₀.objects := by
    induction run with
    | start => exact ⟨keyed, s₀, rfl, rfl⟩
    | @step s s' m inv log _ _ ok recorded ih =>
      obtain ⟨keyedNow, t, back, restored⟩ := ih
      obtain ⟨u, undone, sameObjects, -⟩ := apply_inverse keyedNow ok recorded
      have later := replay_objects_congr sameObjects log
      rw [back, Option.map_some'] at later
      obtain ⟨v, replayed, sameAsBefore⟩ := Option.map_eq_some'.1 later
      exact ⟨keyed_apply keyedNow ok, v, by rw [replay, undone]; exact replayed, sameAsBefore.trans restored⟩
  exact both.2

/-- A session that modifies message 0 to name account 3 instead of 2, then
removes it. -/
theorem replay_restoresObjects_redirected :
    ∃ s, Keyed oneMessage ∧
      Recorded (fun _ _ => True) oneMessage s [.insert ⟨0, 1, [⟨3⟩]⟩, .modify ⟨0, 1, [⟨2⟩]⟩] ∧
      ∃ t, replay s [.insert ⟨0, 1, [⟨3⟩]⟩, .modify ⟨0, 1, [⟨2⟩]⟩] = some t ∧ t.objects = oneMessage.objects :=
  have run : Recorded (fun _ _ => True) oneMessage _ [.insert ⟨0, 1, [⟨3⟩]⟩, .modify ⟨0, 1, [⟨2⟩]⟩] :=
    .step (.step .start trivial (@apply_modify_of_live oneMessage ⟨0, 1, [⟨3⟩]⟩ ⟨0, 1, [⟨2⟩]⟩ rfl) rfl) trivial
      (@apply_remove_of_live _ 0 ⟨0, 1, [⟨3⟩]⟩ rfl) rfl
  ⟨_, synced_oneMessage.keyed, run, replay_restoresObjects _ _ _ synced_oneMessage.keyed run⟩

theorem recorded_synced_replay {s₀ s : MessageIndex} {log : List Mutation} (synced : Synced s₀)
    (run : Recorded KeepsReceivers s₀ s log) : Synced s ∧ replay s log = some s₀ := by
  induction run with
  | start => exact ⟨synced, rfl⟩
  | @step s s' m inv log _ keeps ok recorded ih =>
    obtain ⟨syncedNow, back⟩ := ih
    obtain ⟨⟨objects, memberships⟩, undone, rfl, sameMemberships⟩ := apply_inverse syncedNow.keyed ok recorded
    obtain rfl := sameMemberships syncedNow
    exact ⟨synced_apply syncedNow keeps ok, by rw [replay, undone]; exact back⟩

/-- Undo gives the whole index back when the session starts in step and its modifies keep receivers. -/
theorem replay_restoresIndex (s₀ s : MessageIndex) (log : List Mutation) (synced : Synced s₀)
    (run : Recorded KeepsReceivers s₀ s log) : replay s log = some s₀ :=
  (recorded_synced_replay synced run).2

/-- A session that sends message 0 into the empty index. -/
theorem replay_restoresIndex_oneMessage :
    Synced MessageIndex.empty ∧ Recorded KeepsReceivers MessageIndex.empty oneMessage [.remove 0] ∧
      replay oneMessage [.remove 0] = some MessageIndex.empty :=
  have run : Recorded KeepsReceivers MessageIndex.empty oneMessage [.remove 0] :=
    @Recorded.step KeepsReceivers MessageIndex.empty _ _ (.insert ⟨0, 1, [⟨2⟩]⟩) _ _ .start trivial
      (apply_insert_of_fresh rfl) rfl
  ⟨synced_empty, run, replay_restoresIndex _ _ _ synced_empty run⟩

/-- A modify adding a receiver, then a remove, is undone with the message listed under that receiver, which it
was not before: the remove erases the id under the new receivers only. -/
theorem replay_keepsAddedReceiver (s : MessageIndex) (synced : Synced s) (obj before : MessageObject) (r : AccountId)
    (live : s.objects obj.id = some before) (added : r ∈ obj.receivers) (notBefore : r ∉ before.receivers) :
    ∃ s' t, Recorded (fun _ _ => True) s s' [.insert obj, .modify before] ∧
      replay s' [.insert obj, .modify before] = some t ∧ t.objects = s.objects ∧
      obj.id ∈ t.memberships r ∧ obj.id ∉ s.memberships r := by
  have own := synced.keyed _ _ live
  have removed : MessageIndex.apply ⟨Function.update s.objects obj.id (some obj), s.memberships⟩ (.remove obj.id) =
      some ⟨Function.update s.objects obj.id none, objectRemoved s.memberships obj⟩ := by
    simp [MessageIndex.apply]
  have reinserted : MessageIndex.apply ⟨Function.update s.objects obj.id none, objectRemoved s.memberships obj⟩
      (.insert obj) = some ⟨Function.update s.objects obj.id (some obj), objectInserted (objectRemoved s.memberships obj) obj⟩ := by
    simp [MessageIndex.apply]
  have restored : MessageIndex.apply ⟨Function.update s.objects obj.id (some obj),
      objectInserted (objectRemoved s.memberships obj) obj⟩ (.modify before) =
      some ⟨s.objects, objectInserted (objectRemoved s.memberships obj) obj⟩ := by
    rw [MessageIndex.apply, own]
    simp only [Function.update_same, Function.update_idem, objectModified, aboutToModify]
    rw [← live, Function.update_eq_self]
  refine ⟨_, _, .step (.step .start trivial (apply_modify_of_live live) (by simp [inverse, live])) trivial removed
    (by simp [inverse]), by rw [replay, reinserted, Option.some_bind, replay, restored]; rfl, by rfl, by simp [added],
    fun mem => ?_⟩
  obtain ⟨o, found, named⟩ := (synced.listed r obj.id).1 mem
  rw [live, Option.some.injEq] at found
  exact notBefore (found ▸ named)

/-- Message 0 to account 2 redirected to account 3 and removed: after undo it
is listed under account 3. -/
theorem replay_keepsAddedReceiver_redirected :
    (Synced oneMessage ∧ oneMessage.objects 0 = some ⟨0, 1, [⟨2⟩]⟩ ∧ (3 : AccountId) ∈ MessageObject.receivers ⟨0, 1, [⟨3⟩]⟩ ∧
        (3 : AccountId) ∉ MessageObject.receivers ⟨0, 1, [⟨2⟩]⟩) ∧
      ∃ s' t, Recorded (fun _ _ => True) oneMessage s' [.insert ⟨0, 1, [⟨3⟩]⟩, .modify ⟨0, 1, [⟨2⟩]⟩] ∧
        replay s' [.insert ⟨0, 1, [⟨3⟩]⟩, .modify ⟨0, 1, [⟨2⟩]⟩] = some t ∧ t.objects = oneMessage.objects ∧
        0 ∈ t.memberships 3 ∧ 0 ∉ oneMessage.memberships 3 :=
  ⟨⟨synced_oneMessage, rfl, by decide, by decide⟩,
    replay_keepsAddedReceiver oneMessage synced_oneMessage ⟨0, 1, [⟨3⟩]⟩ ⟨0, 1, [⟨2⟩]⟩ 3 rfl (by decide) (by decide)⟩

end FffChain.Message.Undo
