/- FffChain/Message/Sessions
   source: libraries/db/object_database.cpp, lines 117-137 (pop_undo,
           save_undo, save_undo_add, save_undo_remove); spec, Undo/Session
   digest: The undo manager keeps one undo record per open session, the
   innermost first. A mutation is recorded in the innermost session, a commit
   merges the innermost record into the one around it, and undo replays the
   innermost record. On every run from an in-step message index whose modifies
   keep receivers, undo gives back the index as it was when the innermost open
   session started. -/

import FffChain.Message.Undo

set_option autoImplicit false
set_option relaxedAutoImplicit false

namespace FffChain.Message.Sessions

open FffChain.Message.ReceiverIndex FffChain.Message.Undo

/-- Modelled from the spec (undo_database is not in the sources): the message index with the undo record of each
open session, innermost first. -/
structure UndoDatabase where
  index : MessageIndex
  sessions : List (List Mutation)

/-- Modelled from the spec: a mutation is recorded in the innermost open
session, and in none when no session is open. -/
def mutate (db : UndoDatabase) (m : Mutation) : Option UndoDatabase :=
  match db.sessions with
  | [] => (db.index.apply m).map fun s => ⟨s, []⟩
  | log :: outer => do
    let inv ← inverse db.index m
    let s ← db.index.apply m
    pure ⟨s, (inv :: log) :: outer⟩

/-- Modelled from the spec: start_session pushes an empty undo record. -/
def startSession (db : UndoDatabase) : UndoDatabase := ⟨db.index, [] :: db.sessions⟩

/-- Modelled from the spec: commit merges the innermost record into the one around it, newer entries first, or
drops it when outermost; with no session open there is nothing to commit. -/
def commit (db : UndoDatabase) : Option UndoDatabase :=
  match db.sessions with
  | [] => none
  | [_] => some ⟨db.index, []⟩
  | log :: parent :: outer => some ⟨db.index, (log ++ parent) :: outer⟩

/-- Modelled from the spec: undo replays the innermost session's record and
closes that session. -/
def undo (db : UndoDatabase) : Option UndoDatabase :=
  match db.sessions with
  | [] => none
  | log :: outer => (replay db.index log).map fun s => ⟨s, outer⟩

/-- The states of the undo manager from s₀ by mutations that keep receivers, session starts, commits and undos,
with the index each open session started at, innermost first. -/
inductive Run (s₀ : MessageIndex) : UndoDatabase → List MessageIndex → Prop
  | init : Run s₀ ⟨s₀, []⟩ []
  | mutate {db db' : UndoDatabase} {m : Mutation} {starts : List MessageIndex} :
      Run s₀ db starts → KeepsReceivers db.index m → mutate db m = some db' → Run s₀ db' starts
  | startSession {db : UndoDatabase} {starts : List MessageIndex} :
      Run s₀ db starts → Run s₀ (startSession db) (db.index :: starts)
  | commit {db db' : UndoDatabase} {t : MessageIndex} {starts : List MessageIndex} :
      Run s₀ db (t :: starts) → commit db = some db' → Run s₀ db' starts
  | undo {db db' : UndoDatabase} {t : MessageIndex} {starts : List MessageIndex} :
      Run s₀ db (t :: starts) → undo db = some db' → Run s₀ db' starts

/-- The open sessions' records lead back level by level to in-step indexes, innermost first. -/
inductive Nested : MessageIndex → List (List Mutation) → List MessageIndex → Prop
  | nil {s : MessageIndex} : Nested s [] []
  | push {s t : MessageIndex} {log : List Mutation} {sessions : List (List Mutation)} {starts : List MessageIndex} :
      Synced t → Recorded KeepsReceivers t s log → Nested t sessions starts → Nested s (log :: sessions) (t :: starts)

theorem recorded_append {allowed : MessageIndex → Mutation → Prop} {s₁ s₀ s : MessageIndex}
    {parent log : List Mutation} (first : Recorded allowed s₁ s₀ parent) (second : Recorded allowed s₀ s log) :
    Recorded allowed s₁ s (log ++ parent) := by
  induction second with
  | start => exact first
  | step _ keeps ok recorded ih => exact .step ih keeps ok recorded

section Operations

variable {s : MessageIndex} {sessions : List (List Mutation)} {starts : List MessageIndex}

theorem nested_mutate (synced : Synced s) (nested : Nested s sessions starts) {m : Mutation} {db' : UndoDatabase}
    (keeps : KeepsReceivers s m) (ok : mutate ⟨s, sessions⟩ m = some db') :
    Synced db'.index ∧ Nested db'.index db'.sessions starts := by
  cases nested with
  | nil =>
    obtain ⟨s', applied, rfl⟩ := Option.map_eq_some'.1 ok
    exact ⟨synced_apply synced keeps applied, .nil⟩
  | push startSynced run outer =>
    simp only [mutate, Option.bind_eq_bind, Option.bind_eq_some, Option.pure_def, Option.some.injEq] at ok
    obtain ⟨inv, recorded, s', applied, rfl⟩ := ok
    exact ⟨synced_apply synced keeps applied, .push startSynced (.step run keeps applied recorded) outer⟩

theorem nested_commit {t : MessageIndex} {rest : List MessageIndex} (nested : Nested s sessions (t :: rest))
    {db' : UndoDatabase} (ok : commit ⟨s, sessions⟩ = some db') :
    db'.index = s ∧ Nested db'.index db'.sessions rest := by
  obtain _ | ⟨_, inner, outer⟩ := nested
  cases outer with
  | nil => cases ok; exact ⟨rfl, .nil⟩
  | push parentSynced parentRun further =>
    cases ok
    exact ⟨rfl, .push parentSynced (recorded_append parentRun inner) further⟩

theorem nested_undo {t : MessageIndex} {rest : List MessageIndex} (nested : Nested s sessions (t :: rest)) :
    undo ⟨s, sessions⟩ = some ⟨t, sessions.tail⟩ ∧ Synced t ∧ Nested t sessions.tail rest := by
  obtain _ | ⟨startSynced, inner, outer⟩ := nested
  exact ⟨by simp [undo, (recorded_synced_replay startSynced inner).2], startSynced, outer⟩

end Operations

/-- Every state the undo manager reaches from an in-step index keeps the indexes in step, its sessions nested. -/
theorem run_nested {s₀ : MessageIndex} (synced : Synced s₀) {db : UndoDatabase} {starts : List MessageIndex}
    (run : Run s₀ db starts) : Synced db.index ∧ Nested db.index db.sessions starts := by
  induction run with
  | init => exact ⟨synced, .nil⟩
  | mutate _ keeps ok ih => exact nested_mutate ih.1 ih.2 keeps ok
  | startSession _ ih => exact ⟨ih.1, .push ih.1 .start ih.2⟩
  | commit _ ok ih =>
    obtain ⟨same, nested⟩ := nested_commit ih.2 ok
    exact ⟨same ▸ ih.1, nested⟩
  | undo _ ok ih =>
    obtain ⟨undone, startSynced, nested⟩ := nested_undo ih.2
    rw [undone, Option.some.injEq] at ok
    subst ok
    exact ⟨startSynced, nested⟩

/-- On every run from an in-step index, undo of the innermost session gives back the index at its start, inner
committed sessions included, and leaves the outer sessions open. -/
theorem undo_restoresSessionStart (s₀ : MessageIndex) (synced : Synced s₀) (db : UndoDatabase) (t : MessageIndex)
    (starts : List MessageIndex) (run : Run s₀ db (t :: starts)) : undo db = some ⟨t, db.sessions.tail⟩ :=
  (nested_undo (run_nested synced run).2).1

/-- From the empty index: a session sends message 0, an inner session removes
it and is committed into the outer one, whose undo gives the empty index back. -/
theorem undo_restoresSessionStart_nestedRemove :
    ∃ db, Synced MessageIndex.empty ∧ Run MessageIndex.empty db [MessageIndex.empty] ∧
      undo db = some ⟨MessageIndex.empty, db.sessions.tail⟩ :=
  have sent : Run MessageIndex.empty _ [MessageIndex.empty] :=
    @Run.mutate _ _ _ (.insert ⟨0, 1, [⟨2⟩]⟩) _ (.startSession .init) trivial rfl
  have removed : Run MessageIndex.empty _ [MessageIndex.empty] :=
    .commit (@Run.mutate _ _ _ (.remove 0) _ (.startSession sent) trivial rfl) rfl
  ⟨_, synced_empty, removed, undo_restoresSessionStart _ synced_empty _ _ _ removed⟩

end FffChain.Message.Sessions
