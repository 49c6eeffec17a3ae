/- FffChain/App/Broadcast
   source: libraries/app/api.cpp, lines 144-192
   digest: network_broadcast_api::broadcast_transaction_with_callback records
   the callback under the transaction's id once the transaction validates,
   before it is pushed, and on_applied_block schedules a confirmation for each
   transaction of an applied block that has a callback. No entry is ever
   erased: over every sequence of broadcasts and applied blocks, each applied
   block confirms each of its transactions that some earlier validated
   broadcast registered, with the latest such callback, whether or not that
   broadcast's push succeeded and however often the id was confirmed before. -/

import Mathlib.Data.List.Basic

set_option autoImplicit false
set_option relaxedAutoImplicit false

namespace FffChain.App.Broadcast

/-- The fields of signed_block that on_applied_block reads: block_num() and
the transactions. -/
structure SignedBlock (Trx : Type) where
  blockNum : Nat
  transactions : List Trx

/-- transaction_confirmation: the id, the block number, the zero-based
position of the transaction in the block, and the transaction. -/
structure TransactionConfirmation (TxId Trx : Type) where
  id : TxId
  blockNum : Nat
  trxNum : Nat
  trx : Trx

/-- A call of a confirmation callback, which on_applied_block schedules with
fc::async. -/
structure Dispatch (TxId Trx Callback : Type) where
  callback : Callback
  confirmation : TransactionConfirmation TxId Trx

/-- What happens to a network_broadcast_api: a call of
broadcast_transaction_with_callback, or the applied_block signal. -/
inductive Event (Trx Callback : Type) where
  | broadcastWithCallback (cb : Callback) (trx : Trx)
  | appliedBlock (b : SignedBlock Trx)

section Api

variable {TxId Trx Callback ε : Type} [DecidableEq TxId]

/-! transaction::id (a digest), transaction::validate and the chain's
push_transaction are parameters. The callback table, a std::map, is a list of
entries with distinct ids. -/

variable (trxId : Trx → TxId) (validate : Trx → Except ε Unit)

/-- _callbacks[id] = cb. -/
def setCallback (callbacks : List (TxId × Callback)) (id : TxId) (cb : Callback) : List (TxId × Callback) :=
  (id, cb) :: callbacks.filter fun entry => entry.1 ≠ id

/-- The loop of on_applied_block over the block's transactions. -/
def dispatchLoop (callbacks : List (TxId × Callback)) (blockNum : Nat) :
    Nat → List Trx → List (Dispatch TxId Trx Callback)
  | _, [] => []
  | trxNum, trx :: rest =>
    match callbacks.lookup (trxId trx) with
    | some callback => ⟨callback, ⟨trxId trx, blockNum, trxNum, trx⟩⟩ :: dispatchLoop callbacks blockNum (trxNum + 1) rest
    | none => dispatchLoop callbacks blockNum (trxNum + 1) rest

/-- network_broadcast_api::on_applied_block: the confirmations it schedules,
in order. -/
def onAppliedBlock (callbacks : List (TxId × Callback)) (b : SignedBlock Trx) : List (Dispatch TxId Trx Callback) :=
  if callbacks.length ≠ 0 then dispatchLoop trxId callbacks b.blockNum 0 b.transactions else []

/-- network_broadcast_api::broadcast_transaction_with_callback: its result and the callback table it leaves.
A transaction that validates is registered before it is pushed, so a push that throws leaves it registered. -/
def broadcastTransactionWithCallback (pushTransaction : Trx → Except ε Unit) (callbacks : List (TxId × Callback))
    (cb : Callback) (trx : Trx) : Except ε Unit × List (TxId × Callback) :=
  match validate trx with
  | .error e => (.error e, callbacks)
  | .ok () => (pushTransaction trx, setCallback callbacks (trxId trx) cb)

/-- One event: the callback table and the confirmations scheduled so far. -/
def step (pushTransaction : Trx → Except ε Unit)
    (state : List (TxId × Callback) × List (Dispatch TxId Trx Callback)) :
    Event Trx Callback → List (TxId × Callback) × List (Dispatch TxId Trx Callback)
  | .broadcastWithCallback cb trx =>
    ((broadcastTransactionWithCallback trxId validate pushTransaction state.1 cb trx).2, state.2)
  | .appliedBlock b => (state.1, state.2 ++ onAppliedBlock trxId state.1 b)

/-- A network_broadcast_api from its construction through a sequence of events. -/
def run (pushTransaction : Trx → Except ε Unit) (events : List (Event Trx Callback)) :
    List (TxId × Callback) × List (Dispatch TxId Trx Callback) :=
  events.foldl (step trxId validate pushTransaction) ([], [])

/-- The callback of the latest broadcast among the events whose transaction
has this id and validates. -/
def registeredBy (events : List (Event Trx Callback)) (id : TxId) : Option Callback :=
  (events.filterMap fun
    | .broadcastWithCallback cb trx => if (validate trx).isOk ∧ trxId trx = id then some cb else none
    | .appliedBlock _ => none).getLast?

/-- The confirmations of a block's transactions that have a callback, in the
order of the block. -/
def confirmations (registered : TxId → Option Callback) (b : SignedBlock Trx) : List (Dispatch TxId Trx Callback) :=
  b.transactions.enum.filterMap fun (trxNum, trx) =>
    (registered (trxId trx)).map fun callback => ⟨callback, ⟨trxId trx, b.blockNum, trxNum, trx⟩⟩

/-- The confirmations the events schedule after a history: each applied block confirms its transactions
registered by the events before it. -/
def confirmationsAfter : List (Event Trx Callback) → List (Event Trx Callback) → List (Dispatch TxId Trx Callback)
  | _, [] => []
  | history, .broadcastWithCallback cb trx :: rest =>
    confirmationsAfter (history ++ [.broadcastWithCallback cb trx]) rest
  | history, .appliedBlock b :: rest =>
    confirmations trxId (registeredBy trxId validate history) b ++ confirmationsAfter (history ++ [.appliedBlock b]) rest

theorem lookup_setCallback (callbacks : List (TxId × Callback)) (id x : TxId) (cb : Callback) :
    (setCallback callbacks id cb).lookup x = if x = id then some cb else callbacks.lookup x := by
  by_cases same : x = id
  · subst same; simp [setCallback]
  · have other : (x == id) = false := by simpa using same
    have skip : ∀ l : List (TxId × Callback), (l.filter fun entry => entry.1 ≠ id).lookup x = l.lookup x := by
      intro l
      induction l with
      | nil => rfl
      | cons entry rest ih =>
        obtain ⟨k, v⟩ := entry
        by_cases dropped : k = id
        · subst dropped
          rw [List.filter_cons_of_neg (by simp), ih, List.lookup_cons, other]
        · rw [List.filter_cons_of_pos (by simpa using dropped), List.lookup_cons, List.lookup_cons, ih]
    rw [setCallback, List.lookup_cons, other, if_neg same]
    exact skip callbacks

theorem dispatchLoop_eq (callbacks : List (TxId × Callback)) (blockNum trxNum : Nat) (transactions : List Trx) :
    dispatchLoop trxId callbacks blockNum trxNum transactions =
      (transactions.enumFrom trxNum).filterMap fun (n, trx) =>
        (callbacks.lookup (trxId trx)).map fun callback => ⟨callback, ⟨trxId trx, blockNum, n, trx⟩⟩ := by
  induction transactions generalizing trxNum with
  | nil => rfl
  | cons trx rest ih =>
    unfold dispatchLoop
    split
    · next callback found => simp only [List.enumFrom_cons, List.filterMap_cons, found, Option.map_some', ih]
    · next absent => simp only [List.enumFrom_cons, List.filterMap_cons, absent, Option.map_none', ih]

theorem onAppliedBlock_eq (callbacks : List (TxId × Callback)) (b : SignedBlock Trx) :
    onAppliedBlock trxId callbacks b = confirmations trxId callbacks.lookup b := by
  rw [onAppliedBlock, confirmations, List.enum, ← dispatchLoop_eq]
  split
  · rfl
  · next empty =>
    obtain rfl : callbacks = [] := List.length_eq_zero.1 (not_not.1 empty)
    simp [dispatchLoop_eq, List.lookup_nil]

theorem registeredBy_snoc (history : List (Event Trx Callback)) (e : Event Trx Callback) (id : TxId) :
    registeredBy trxId validate (history ++ [e]) id =
      match e with
      | .broadcastWithCallback cb trx =>
        if (validate trx).isOk ∧ trxId trx = id then some cb else registeredBy trxId validate history id
      | .appliedBlock _ => registeredBy trxId validate history id := by
  cases e with
  | broadcastWithCallback cb trx =>
    by_cases counted : (validate trx).isOk ∧ trxId trx = id
    · simp [registeredBy, counted]
    · simp only [registeredBy, List.filterMap_append, List.filterMap_cons, List.filterMap_nil, counted, if_false,
        List.append_nil]
  | appliedBlock b => simp [registeredBy]

theorem run_from (pushTransaction : Trx → Except ε Unit) (events history : List (Event Trx Callback))
    (state : List (TxId × Callback) × List (Dispatch TxId Trx Callback))
    (represents : ∀ id, state.1.lookup id = registeredBy trxId validate history id) :
    (events.foldl (step trxId validate pushTransaction) state).2 =
      state.2 ++ confirmationsAfter trxId validate history events := by
  induction events generalizing history state with
  | nil => simp [confirmationsAfter]
  | cons e rest ih =>
    rw [List.foldl_cons]
    cases e with
    | broadcastWithCallback cb trx =>
      rw [confirmationsAfter, ih (history ++ [.broadcastWithCallback cb trx])]
      · rfl
      · intro id
        rw [registeredBy_snoc, ← represents, step, broadcastTransactionWithCallback]
        split
        · next e fails => simp [fails, Except.isOk, Except.toBool]
        · next passes => simp [lookup_setCallback, passes, Except.isOk, Except.toBool, eq_comm]
    | appliedBlock b =>
      rw [confirmationsAfter, ih (history ++ [.appliedBlock b])]
      · simp only [step, onAppliedBlock_eq, List.append_assoc]
        congr 2
        exact congrArg (confirmations trxId · b) (funext represents)
      · intro id
        rw [registeredBy_snoc]
        exact represents id

/-- Over every sequence of events, each applied block confirms each of its transactions that an earlier
validated broadcast registered, with the latest callback: a registration is never dropped. -/
theorem run_confirmations (pushTransaction : Trx → Except ε Unit) (events : List (Event Trx Callback)) :
    (run trxId validate pushTransaction events).2 = confirmationsAfter trxId validate [] events :=
  run_from trxId validate pushTransaction events [] ([], []) fun _ => rfl

end Api

end FffChain.App.Broadcast
