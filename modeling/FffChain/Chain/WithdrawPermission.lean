/- FffChain/Chain/WithdrawPermission
   source: libraries/chain/withdraw_permission_evaluator.cpp, lines 34-141
   digest: The four withdraw permission evaluators over a database of stored
   permissions, with time_point_sec a uint32 count of seconds. On every
   database a chain reaches, each stored permission has a positive period and
   fields that fit, so a claim the evaluator accepts divides by a positive
   period: it moves the period start by whole periods to the period boundary
   on the start's side of the head time, the uint32 cast of a negative shift
   included, and adds the amount to what was claimed in the period exactly
   when the head time is within one period of the start. The create evaluator
   computes the expiration in uint32 arithmetic and, at every head time,
   accepts operations whose permission expires before its period starts. -/

import Mathlib.Tactic.Ring
import Mathlib.Logic.Function.Basic

set_option autoImplicit false
set_option relaxedAutoImplicit false

namespace FffChain.Chain.WithdrawPermission

/-! The operation and object headers are not in the sources; the fields are
those the evaluators read and write, with the widths of time_point_sec and
uint32_t for the times and periods. -/

/-- An asset: an amount (share_type) of an asset id. -/
structure Asset where
  amount : Int
  assetId : Nat
deriving DecidableEq, Repr

/-- withdraw_permission_object; times are seconds of a time_point_sec. -/
structure WithdrawPermissionObject where
  withdrawFromAccount : Nat
  authorizedAccount : Nat
  withdrawalLimit : Asset
  withdrawalPeriodSec : Nat
  periodStartTime : Nat
  expiration : Nat
  claimedThisPeriod : Int
deriving DecidableEq, Repr

/-- withdraw_permission_create_operation. -/
structure WithdrawPermissionCreateOperation where
  withdrawFromAccount : Nat
  authorizedAccount : Nat
  withdrawalLimit : Asset
  withdrawalPeriodSec : Nat
  periodsUntilExpiration : Nat
  periodStartTime : Nat
deriving DecidableEq, Repr

/-- withdraw_permission_update_operation. -/
structure WithdrawPermissionUpdateOperation where
  withdrawFromAccount : Nat
  authorizedAccount : Nat
  permissionToUpdate : Nat
  withdrawalLimit : Asset
  withdrawalPeriodSec : Nat
  periodStartTime : Nat
  periodsUntilExpiration : Nat
deriving DecidableEq, Repr

/-- withdraw_permission_claim_operation. -/
structure WithdrawPermissionClaimOperation where
  withdrawPermission : Nat
  withdrawFromAccount : Nat
  withdrawToAccount : Nat
  amountToWithdraw : Asset
deriving DecidableEq, Repr

/-- withdraw_permission_delete_operation. -/
structure WithdrawPermissionDeleteOperation where
  withdrawFromAccount : Nat
  authorizedAccount : Nat
  withdrawalPermission : Nat
deriving DecidableEq, Repr

/-- What the evaluators read and write: head time, block_interval, accounts and assets, balances, the stored
permissions by id, and the next permission's id. -/
structure Database where
  headBlockTime : Nat
  blockInterval : Nat
  accountExists : Nat → Bool
  assetExists : Nat → Bool
  getBalance : Nat → Nat → Int
  permits : Nat → Option WithdrawPermissionObject
  nextPermitId : Nat

/-- The exceptions: an FC_ASSERT, by the expression it asserts, and the lookup
of an object that does not exist. -/
inductive WithdrawError where
  | assertFailed (expression : String)
  | objectNotFound
deriving DecidableEq, Repr

/-- FC_ASSERT(expression). -/
def fcAssert (holds : Bool) (expression : String) : Except WithdrawError Unit :=
  if holds then .ok () else .error (.assertFailed expression)

theorem fcAssert_eq_ok (holds : Bool) (expression : String) : fcAssert holds expression = .ok () ↔ holds = true := by
  cases holds <;> simp [fcAssert]

theorem fcAssert_bind_eq_ok {α : Type} (holds : Bool) (expression : String) (rest : Unit → Except WithdrawError α)
    (a : α) : (fcAssert holds expression >>= rest) = .ok a ↔ holds = true ∧ rest () = .ok a := by
  cases holds <;> simp [fcAssert, bind, Except.bind]

/-- time_point_sec + uint32_t and time_point_sec += uint32_t: the seconds add
as uint32. -/
def addSeconds (t offset : Nat) : Nat := (t + offset) % 2 ^ 32

/-- op.period_start_time + op.periods_until_expiration *
op.withdrawal_period_sec: a uint32 product added to a time_point_sec. -/
def expirationOf (periodStartTime periodsUntilExpiration withdrawalPeriodSec : Nat) : Nat :=
  addSeconds periodStartTime (periodsUntilExpiration * withdrawalPeriodSec % 2 ^ 32)

/-! ## withdraw_permission_create -/

namespace WithdrawPermissionCreateEvaluator

/-- withdraw_permission_create_evaluator::do_evaluate. -/
def doEvaluate (d : Database) (op : WithdrawPermissionCreateOperation) : Except WithdrawError Unit := do
  fcAssert (d.accountExists op.withdrawFromAccount) "d.find_object(op.withdraw_from_account)"
  fcAssert (d.accountExists op.authorizedAccount) "d.find_object(op.authorized_account)"
  fcAssert (d.assetExists op.withdrawalLimit.assetId) "d.find_object(op.withdrawal_limit.asset_id)"
  fcAssert (op.periodStartTime > d.headBlockTime) "op.period_start_time > d.head_block_time()"
  fcAssert (expirationOf op.periodStartTime op.periodsUntilExpiration op.withdrawalPeriodSec > d.headBlockTime)
    "op.period_start_time + op.periods_until_expiration * op.withdrawal_period_sec > d.head_block_time()"
  fcAssert (op.withdrawalPeriodSec ≥ d.blockInterval)
    "op.withdrawal_period_sec >= d.get_global_properties().parameters.block_interval"

/-- The object withdraw_permission_create_evaluator::do_apply creates. -/
def created (op : WithdrawPermissionCreateOperation) : WithdrawPermissionObject where
  withdrawFromAccount := op.withdrawFromAccount
  authorizedAccount := op.authorizedAccount
  withdrawalLimit := op.withdrawalLimit
  withdrawalPeriodSec := op.withdrawalPeriodSec
  expiration := expirationOf op.periodStartTime op.periodsUntilExpiration op.withdrawalPeriodSec
  periodStartTime := op.periodStartTime
  claimedThisPeriod := 0

/-- withdraw_permission_create_evaluator::do_apply: the new object's id and
the database holding it. -/
def doApply (d : Database) (op : WithdrawPermissionCreateOperation) : Nat × Database :=
  (d.nextPermitId,
    { d with permits := Function.update d.permits d.nextPermitId (some (created op)), nextPermitId := d.nextPermitId + 1 })

theorem doEvaluate_eq_ok (d : Database) (op : WithdrawPermissionCreateOperation) :
    doEvaluate d op = .ok () ↔
      d.accountExists op.withdrawFromAccount = true ∧ d.accountExists op.authorizedAccount = true ∧
      d.assetExists op.withdrawalLimit.assetId = true ∧ d.headBlockTime < op.periodStartTime ∧
      d.headBlockTime < expirationOf op.periodStartTime op.periodsUntilExpiration op.withdrawalPeriodSec ∧
      d.blockInterval ≤ op.withdrawalPeriodSec := by
  simp only [doEvaluate, fcAssert_bind_eq_ok, fcAssert_eq_ok, decide_eq_true_eq, gt_iff_lt, ge_iff_le]

end WithdrawPermissionCreateEvaluator

/-! ## withdraw_permission_update -/

namespace WithdrawPermissionUpdateEvaluator

/-- withdraw_permission_update_evaluator::do_evaluate. Unlike the create
evaluator, it lets the new period start at the head time itself. -/
def doEvaluate (d : Database) (op : WithdrawPermissionUpdateOperation) : Except WithdrawError Unit :=
  match d.permits op.permissionToUpdate with
  | none => .error .objectNotFound
  | some permit => do
    fcAssert (permit.authorizedAccount = op.authorizedAccount) "permit.authorized_account == op.authorized_account"
    fcAssert (permit.withdrawFromAccount = op.withdrawFromAccount)
      "permit.withdraw_from_account == op.withdraw_from_account"
    fcAssert (d.assetExists op.withdrawalLimit.assetId) "d.find_object(op.withdrawal_limit.asset_id)"
    fcAssert (op.periodStartTime ≥ d.headBlockTime) "op.period_start_time >= d.head_block_time()"
    fcAssert (expirationOf op.periodStartTime op.periodsUntilExpiration op.withdrawalPeriodSec > d.headBlockTime)
      "op.period_start_time + op.periods_until_expiration * op.withdrawal_period_sec > d.head_block_time()"
    fcAssert (op.withdrawalPeriodSec ≥ d.blockInterval)
      "op.withdrawal_period_sec >= d.get_global_properties().parameters.block_interval"

/-- The modifier of withdraw_permission_update_evaluator::do_apply; the
amount claimed in the period is kept. -/
def modify (op : WithdrawPermissionUpdateOperation) (p : WithdrawPermissionObject) : WithdrawPermissionObject :=
  { p with
    periodStartTime := op.periodStartTime
    expiration := expirationOf op.periodStartTime op.periodsUntilExpiration op.withdrawalPeriodSec
    withdrawalLimit := op.withdrawalLimit
    withdrawalPeriodSec := op.withdrawalPeriodSec }

/-- withdraw_permission_update_evaluator::do_apply. -/
def doApply (d : Database) (op : WithdrawPermissionUpdateOperation) : Except WithdrawError Database :=
  match d.permits op.permissionToUpdate with
  | none => .error .objectNotFound
  | some p => .ok { d with permits := Function.update d.permits op.permissionToUpdate (some (modify op p)) }

theorem doEvaluate_eq_ok (d : Database) (op : WithdrawPermissionUpdateOperation) :
    doEvaluate d op = .ok () ↔ ∃ permit, d.permits op.permissionToUpdate = some permit ∧
      permit.authorizedAccount = op.authorizedAccount ∧ permit.withdrawFromAccount = op.withdrawFromAccount ∧
      d.assetExists op.withdrawalLimit.assetId = true ∧ d.headBlockTime ≤ op.periodStartTime ∧
      d.headBlockTime < expirationOf op.periodStartTime op.periodsUntilExpiration op.withdrawalPeriodSec ∧
      d.blockInterval ≤ op.withdrawalPeriodSec := by
  unfold doEvaluate
  split
  · next absent => simp [absent]
  · next permit stored =>
    simp only [stored, Option.some.injEq, exists_eq_left', fcAssert_bind_eq_ok, fcAssert_eq_ok, decide_eq_true_eq,
      gt_iff_lt, ge_iff_le]

end WithdrawPermissionUpdateEvaluator

/-! ## withdraw_permission_claim -/

/-- (d.head_block_time() - p.period_start_time).to_seconds() / p.withdrawal_period_sec: an int64 division,
rounding toward zero. -/
def claimPeriods (headBlockTime : Nat) (p : WithdrawPermissionObject) : Int :=
  Int.tdiv ((headBlockTime : Int) - p.periodStartTime) p.withdrawalPeriodSec

theorem claimPeriods_eq (headBlockTime : Nat) (p : WithdrawPermissionObject) :
    claimPeriods headBlockTime p =
      if p.periodStartTime ≤ headBlockTime then (((headBlockTime - p.periodStartTime) / p.withdrawalPeriodSec : Nat) : Int)
      else -(((p.periodStartTime - headBlockTime) / p.withdrawalPeriodSec : Nat) : Int) := by
  unfold claimPeriods
  split
  · next after => rw [← Nat.cast_sub after, ← Int.ofNat_tdiv]
  · next before =>
    rw [show (headBlockTime : Int) - p.periodStartTime = -((p.periodStartTime - headBlockTime : Nat) : Int) by omega,
      Int.neg_tdiv, ← Int.ofNat_tdiv]

namespace WithdrawPermissionClaimEvaluator

/-- withdraw_permission_claim_evaluator::do_evaluate; available_this_period (not in the sources) is a
parameter, and assets compare by amount. -/
def doEvaluate (availableThisPeriod : WithdrawPermissionObject → Nat → Asset) (d : Database)
    (op : WithdrawPermissionClaimOperation) : Except WithdrawError Unit :=
  match d.permits op.withdrawPermission with
  | none => .error .objectNotFound
  | some permit => do
    fcAssert (permit.expiration > d.headBlockTime) "permit.expiration > d.head_block_time()"
    fcAssert (permit.authorizedAccount = op.withdrawToAccount) "permit.authorized_account == op.withdraw_to_account"
    fcAssert (permit.withdrawFromAccount = op.withdrawFromAccount)
      "permit.withdraw_from_account == op.withdraw_from_account"
    fcAssert (op.amountToWithdraw.amount ≤ (availableThisPeriod permit d.headBlockTime).amount)
      "op.amount_to_withdraw <= permit.available_this_period( d.head_block_time() )"
    fcAssert (d.getBalance op.withdrawFromAccount op.amountToWithdraw.assetId ≥ op.amountToWithdraw.amount)
      "d.get_balance(op.withdraw_from_account, op.amount_to_withdraw.asset_id) >= op.amount_to_withdraw"
    if d.assetExists op.amountToWithdraw.assetId ∧ d.accountExists op.withdrawToAccount ∧
      d.accountExists permit.authorizedAccount then .ok () else .error .objectNotFound

/-- The modifier of the claim's do_apply: the start moves by static_cast<uint32_t>(periods * withdrawal_period_sec),
and the claimed amount accumulates when no period has passed, else restarts. -/
def modify (headBlockTime : Nat) (amount : Int) (p : WithdrawPermissionObject) : WithdrawPermissionObject :=
  let periods := claimPeriods headBlockTime p
  { p with
    periodStartTime := addSeconds p.periodStartTime ((periods * p.withdrawalPeriodSec) % 2 ^ 32).toNat
    claimedThisPeriod := if periods = 0 then p.claimedThisPeriod + amount else amount }

/-- withdraw_permission_claim_evaluator::do_apply, for the permission; the
two database::adjust_balance calls are not in the sources and are left out. -/
def doApply (d : Database) (op : WithdrawPermissionClaimOperation) : Except WithdrawError Database :=
  match d.permits op.withdrawPermission with
  | none => .error .objectNotFound
  | some p => .ok { d with
      permits := Function.update d.permits op.withdrawPermission (some (modify d.headBlockTime op.amountToWithdraw.amount p)) }

end WithdrawPermissionClaimEvaluator

/-! ## withdraw_permission_delete -/

namespace WithdrawPermissionDeleteEvaluator

/-- withdraw_permission_delete_evaluator::do_evaluate. -/
def doEvaluate (d : Database) (op : WithdrawPermissionDeleteOperation) : Except WithdrawError Unit :=
  match d.permits op.withdrawalPermission with
  | none => .error .objectNotFound
  | some permit => do
    fcAssert (permit.authorizedAccount = op.authorizedAccount) "permit.authorized_account == op.authorized_account"
    fcAssert (permit.withdrawFromAccount = op.withdrawFromAccount)
      "permit.withdraw_from_account == op.withdraw_from_account"

/-- withdraw_permission_delete_evaluator::do_apply. -/
def doApply (d : Database) (op : WithdrawPermissionDeleteOperation) : Except WithdrawError Database :=
  match d.permits op.withdrawalPermission with
  | none => .error .objectNotFound
  | some _ => .ok { d with permits := Function.update d.permits op.withdrawalPermission none }

end WithdrawPermissionDeleteEvaluator

/-! ## The evaluators on a chain -/

/-- The withdraw permission operations. -/
inductive Operation where
  | create (op : WithdrawPermissionCreateOperation)
  | update (op : WithdrawPermissionUpdateOperation)
  | claim (op : WithdrawPermissionClaimOperation)
  | delete (op : WithdrawPermissionDeleteOperation)

/-- The uint32 and time_point_sec fields of an operation hold values below
2^32. -/
def Operation.Fits : Operation → Prop
  | .create op => op.periodStartTime < 2 ^ 32 ∧ op.periodsUntilExpiration < 2 ^ 32 ∧ op.withdrawalPeriodSec < 2 ^ 32
  | .update op => op.periodStartTime < 2 ^ 32 ∧ op.periodsUntilExpiration < 2 ^ 32 ∧ op.withdrawalPeriodSec < 2 ^ 32
  | .claim _ | .delete _ => True

section Chain

variable (availableThisPeriod : WithdrawPermissionObject → Nat → Asset)

/-- do_evaluate, then do_apply when it passes (the evaluator interface is not in the sources). -/
def Database.apply (d : Database) : Operation → Except WithdrawError Database
  | .create op => do
    WithdrawPermissionCreateEvaluator.doEvaluate d op
    pure (WithdrawPermissionCreateEvaluator.doApply d op).2
  | .update op => do
    WithdrawPermissionUpdateEvaluator.doEvaluate d op
    WithdrawPermissionUpdateEvaluator.doApply d op
  | .claim op => do
    WithdrawPermissionClaimEvaluator.doEvaluate availableThisPeriod d op
    WithdrawPermissionClaimEvaluator.doApply d op
  | .delete op => do
    WithdrawPermissionDeleteEvaluator.doEvaluate d op
    WithdrawPermissionDeleteEvaluator.doApply d op

/-- The databases a chain reaches from one without permissions, by operations whose fields fit and by any other
change that keeps the head time a time_point_sec and the block interval positive. -/
inductive Reachable : Database → Prop
  | genesis {d : Database} : (∀ id, d.permits id = none) → d.headBlockTime < 2 ^ 32 → 0 < d.blockInterval →
      Reachable d
  | operation {d d' : Database} {op : Operation} : Reachable d → op.Fits → d.apply availableThisPeriod op = .ok d' →
      Reachable d'
  | chain {d d' : Database} : Reachable d → d'.permits = d.permits → d'.headBlockTime < 2 ^ 32 → 0 < d'.blockInterval →
      Reachable d'

end Chain

/-- A stored permission whose fields fit their widths and whose period is
positive, so that a claim's division is by a positive number. -/
structure PermitFits (p : WithdrawPermissionObject) : Prop where
  periodPositive : 0 < p.withdrawalPeriodSec
  periodFits : p.withdrawalPeriodSec < 2 ^ 32
  startFits : p.periodStartTime < 2 ^ 32
  expirationFits : p.expiration < 2 ^ 32

/-- The invariant of reachable databases. -/
structure Database.Sound (d : Database) : Prop where
  headFits : d.headBlockTime < 2 ^ 32
  intervalPositive : 0 < d.blockInterval
  permits : ∀ id p, d.permits id = some p → PermitFits p

theorem Database.Sound.write {d d' : Database} (sound : d.Sound) (id : Nat) (v : Option WithdrawPermissionObject)
    (fits : ∀ p, v = some p → PermitFits p) (head : d'.headBlockTime = d.headBlockTime)
    (interval : d'.blockInterval = d.blockInterval) (written : d'.permits = Function.update d.permits id v) :
    d'.Sound := by
  refine ⟨head ▸ sound.headFits, interval ▸ sound.intervalPositive, fun id' p stored => ?_⟩
  rw [written, Function.update_apply] at stored
  split at stored
  · exact fits p stored
  · exact sound.permits id' p stored

theorem bind_eq_ok {α β : Type} {x : Except WithdrawError α} {f : α → Except WithdrawError β} {b : β} :
    x >>= f = .ok b ↔ ∃ a, x = .ok a ∧ f a = .ok b := by
  cases x <;> simp [bind, Except.bind]

theorem Database.Sound.apply {d d' : Database} (availableThisPeriod : WithdrawPermissionObject → Nat → Asset)
    (sound : d.Sound) {op : Operation} (fits : op.Fits) (applied : d.apply availableThisPeriod op = .ok d') :
    d'.Sound := by
  cases op with
  | create op =>
    obtain ⟨⟨⟩, accepted, applied⟩ := bind_eq_ok.1 applied
    obtain ⟨-, -, -, -, -, atLeast⟩ := (WithdrawPermissionCreateEvaluator.doEvaluate_eq_ok d op).1 accepted
    cases applied
    exact sound.write _ _ (fun p written => by
      cases written
      exact ⟨sound.intervalPositive.trans_le atLeast, fits.2.2, fits.1, Nat.mod_lt _ (by norm_num)⟩) rfl rfl rfl
  | update op =>
    obtain ⟨⟨⟩, accepted, applied⟩ := bind_eq_ok.1 applied
    obtain ⟨permit, stored, -, -, -, -, -, atLeast⟩ := (WithdrawPermissionUpdateEvaluator.doEvaluate_eq_ok d op).1 accepted
    simp only [WithdrawPermissionUpdateEvaluator.doApply, stored, Except.ok.injEq] at applied
    subst applied
    exact sound.write _ _ (fun p written => by
      cases written
      exact ⟨sound.intervalPositive.trans_le atLeast, fits.2.2, fits.1, Nat.mod_lt _ (by norm_num)⟩) rfl rfl rfl
  | claim op =>
    obtain ⟨⟨⟩, -, applied⟩ := bind_eq_ok.1 applied
    cases stored : d.permits op.withdrawPermission with
    | none => simp [WithdrawPermissionClaimEvaluator.doApply, stored] at applied
    | some p =>
      simp only [WithdrawPermissionClaimEvaluator.doApply, stored, Except.ok.injEq] at applied
      subst applied
      have old := sound.permits _ _ stored
      exact sound.write _ _ (fun q written => by
        cases written
        exact ⟨old.periodPositive, old.periodFits, Nat.mod_lt _ (by norm_num), old.expirationFits⟩) rfl rfl rfl
  | delete op =>
    obtain ⟨⟨⟩, -, applied⟩ := bind_eq_ok.1 applied
    cases stored : d.permits op.withdrawalPermission with
    | none => simp [WithdrawPermissionDeleteEvaluator.doApply, stored] at applied
    | some p =>
      simp only [WithdrawPermissionDeleteEvaluator.doApply, stored, Except.ok.injEq] at applied
      subst applied
      exact sound.write _ _ (fun _ none => by cases none) rfl rfl rfl

/-- Every database a chain reaches satisfies the invariant. -/
theorem reachable_sound {availableThisPeriod : WithdrawPermissionObject → Nat → Asset} {d : Database}
    (reachable : Reachable availableThisPeriod d) : d.Sound := by
  induction reachable with
  | genesis empty headFits positive => exact ⟨headFits, positive, fun id p stored => by simp [empty] at stored⟩
  | operation _ fits applied ih => exact ih.apply availableThisPeriod fits applied
  | chain _ same headFits positive ih => exact ⟨headFits, positive, fun id p stored => ih.permits id p (same ▸ stored)⟩

/-! ## What a claim does to a permission -/

/-- A claim at head time t, by period boundaries: the start moves by whole periods to the boundary nearest t on
the start's side, the claimed amount grows iff t is within a period of the start, and nothing else changes. -/
@[mk_iff]
structure ClaimSpec (t : Nat) (amount : Int) (p p' : WithdrawPermissionObject) : Prop where
  wholePeriods : ∃ k : Int, (p'.periodStartTime : Int) = p.periodStartTime + k * p.withdrawalPeriodSec
  fromBefore : p.periodStartTime ≤ t → p'.periodStartTime ≤ t ∧ t < p'.periodStartTime + p.withdrawalPeriodSec
  fromAfter : t < p.periodStartTime → t ≤ p'.periodStartTime ∧ p'.periodStartTime < t + p.withdrawalPeriodSec
  claimed : p'.claimedThisPeriod =
    if t < p.periodStartTime + p.withdrawalPeriodSec ∧ p.periodStartTime < t + p.withdrawalPeriodSec
    then p.claimedThisPeriod + amount else amount
  frame : p' = { p with periodStartTime := p'.periodStartTime, claimedThisPeriod := p'.claimedThisPeriod }

namespace WithdrawPermissionClaimEvaluator

theorem modify_of_le (p : WithdrawPermissionObject) (headBlockTime : Nat) (amount : Int)
    (headFits : headBlockTime < 2 ^ 32) (after : p.periodStartTime ≤ headBlockTime) :
    modify headBlockTime amount p = { p with
      periodStartTime := p.periodStartTime + p.withdrawalPeriodSec * ((headBlockTime - p.periodStartTime) / p.withdrawalPeriodSec)
      claimedThisPeriod := if (headBlockTime - p.periodStartTime) / p.withdrawalPeriodSec = 0
        then p.claimedThisPeriod + amount else amount } := by
  have passed := Nat.mul_div_le (headBlockTime - p.periodStartTime) p.withdrawalPeriodSec
  simp only [modify, claimPeriods_eq, if_pos after, addSeconds, Nat.cast_eq_zero]
  generalize (headBlockTime - p.periodStartTime) / p.withdrawalPeriodSec = q at passed ⊢
  have shift : ((q : Int) * p.withdrawalPeriodSec) = ((p.withdrawalPeriodSec * q : Nat) : Int) := by push_cast; ring
  rw [shift]
  congr 2
  omega

theorem modify_of_lt (p : WithdrawPermissionObject) (headBlockTime : Nat) (amount : Int)
    (startFits : p.periodStartTime < 2 ^ 32) (before : headBlockTime < p.periodStartTime) :
    modify headBlockTime amount p = { p with
      periodStartTime := p.periodStartTime - p.withdrawalPeriodSec * ((p.periodStartTime - headBlockTime) / p.withdrawalPeriodSec)
      claimedThisPeriod := if (p.periodStartTime - headBlockTime) / p.withdrawalPeriodSec = 0
        then p.claimedThisPeriod + amount else amount } := by
  have passed := Nat.mul_div_le (p.periodStartTime - headBlockTime) p.withdrawalPeriodSec
  simp only [modify, claimPeriods_eq, if_neg (Nat.not_le.2 before), addSeconds, neg_eq_zero, Nat.cast_eq_zero]
  generalize (p.periodStartTime - headBlockTime) / p.withdrawalPeriodSec = q at passed ⊢
  have shift : (-(q : Int) * p.withdrawalPeriodSec) = -((p.withdrawalPeriodSec * q : Nat) : Int) := by push_cast; ring
  rw [shift]
  congr 2
  omega

end WithdrawPermissionClaimEvaluator

/-- The claim modifier, with the int64 division toward zero and the uint32 cast and addition, meets the
claim specification. -/
theorem modify_claimSpec (p : WithdrawPermissionObject) (headBlockTime : Nat) (amount : Int)
    (startFits : p.periodStartTime < 2 ^ 32) (headFits : headBlockTime < 2 ^ 32) (positive : 0 < p.withdrawalPeriodSec) :
    ClaimSpec headBlockTime amount p (WithdrawPermissionClaimEvaluator.modify headBlockTime amount p) := by
  rcases le_or_lt p.periodStartTime headBlockTime with after | before
  · rw [WithdrawPermissionClaimEvaluator.modify_of_le p headBlockTime amount headFits after]
    have split := Nat.div_add_mod (headBlockTime - p.periodStartTime) p.withdrawalPeriodSec
    have small := Nat.mod_lt (headBlockTime - p.periodStartTime) positive
    generalize (headBlockTime - p.periodStartTime) / p.withdrawalPeriodSec = q at split ⊢
    generalize (headBlockTime - p.periodStartTime) % p.withdrawalPeriodSec = r at split small
    refine ⟨⟨q, by push_cast; ring⟩, fun _ => by dsimp only; omega, fun before => absurd after (by omega), ?_, rfl⟩
    rcases Nat.eq_zero_or_pos q with zero | pos
    · subst zero
      rw [if_pos rfl, if_pos (by omega)]
    · have := Nat.le_mul_of_pos_right p.withdrawalPeriodSec pos
      rw [if_neg (by omega), if_neg (by omega)]
  · rw [WithdrawPermissionClaimEvaluator.modify_of_lt p headBlockTime amount startFits before]
    have split := Nat.div_add_mod (p.periodStartTime - headBlockTime) p.withdrawalPeriodSec
    have small := Nat.mod_lt (p.periodStartTime - headBlockTime) positive
    generalize (p.periodStartTime - headBlockTime) / p.withdrawalPeriodSec = q at split ⊢
    generalize (p.periodStartTime - headBlockTime) % p.withdrawalPeriodSec = r at split small
    have back : p.withdrawalPeriodSec * q ≤ p.periodStartTime := by omega
    refine ⟨⟨-q, by push_cast [Nat.cast_sub back]; ring⟩, fun after => absurd after (by omega),
      fun _ => by dsimp only; omega, ?_, rfl⟩
    rcases Nat.eq_zero_or_pos q with zero | pos
    · subst zero
      rw [if_pos rfl, if_pos (by omega)]
    · have := Nat.le_mul_of_pos_right p.withdrawalPeriodSec pos
      rw [if_neg (by omega), if_neg (by omega)]

/-! ## The evaluators over whole runs -/

/-- On every reachable database, an accepted claim names a stored permission with a positive period, and
do_apply stores in its place one that meets the claim specification. -/
theorem reachable_claim_meetsSpec (availableThisPeriod : WithdrawPermissionObject → Nat → Asset) {d : Database}
    (reachable : Reachable availableThisPeriod d) (op : WithdrawPermissionClaimOperation)
    (accepted : WithdrawPermissionClaimEvaluator.doEvaluate availableThisPeriod d op = .ok ()) :
    ∃ p p', d.permits op.withdrawPermission = some p ∧ 0 < p.withdrawalPeriodSec ∧
      d.apply availableThisPeriod (.claim op) =
        .ok { d with permits := Function.update d.permits op.withdrawPermission (some p') } ∧
      ClaimSpec d.headBlockTime op.amountToWithdraw.amount p p' := by
  have sound := reachable_sound reachable
  cases stored : d.permits op.withdrawPermission with
  | none =>
    unfold WithdrawPermissionClaimEvaluator.doEvaluate at accepted
    rw [stored] at accepted
    cases accepted
  | some p =>
    have fits := sound.permits _ _ stored
    refine ⟨p, _, rfl, fits.periodPositive, ?_,
      modify_claimSpec p _ _ fits.startFits sound.headFits fits.periodPositive⟩
    simp only [Database.apply, bind, Except.bind, accepted, WithdrawPermissionClaimEvaluator.doApply, stored]

/-- A database without permissions at head time 100 and block interval 3, where everything exists and every
balance is 1000. -/
def sampleGenesis : Database := ⟨100, 3, fun _ => true, fun _ => true, fun _ _ => 1000, fun _ => none, 0⟩

/-- A permission of 10 per 50-second period for four periods from time 120,
from account 1 to account 2. -/
def samplePermit : WithdrawPermissionCreateOperation := ⟨1, 2, ⟨10, 0⟩, 50, 4, 120⟩

/-- The sample genesis after the sample permission is created. -/
def sampleCreated : Database :=
  { sampleGenesis with
    permits := Function.update sampleGenesis.permits 0 (some (WithdrawPermissionCreateEvaluator.created samplePermit))
    nextPermitId := 1 }

/-- Account 2 claims 5 at head time 275, three periods and 35 seconds after
the permission's start, with the withdrawal limit available. -/
theorem reachable_claim_meetsSpec_afterCreate :
    Reachable (fun p _ => p.withdrawalLimit) { sampleCreated with headBlockTime := 275 } ∧
      WithdrawPermissionClaimEvaluator.doEvaluate (fun p _ => p.withdrawalLimit) { sampleCreated with headBlockTime := 275 }
        ⟨0, 1, 2, ⟨5, 0⟩⟩ = .ok () ∧
      ∃ p p', ({ sampleCreated with headBlockTime := 275 } : Database).permits 0 = some p ∧ 0 < p.withdrawalPeriodSec ∧
        Database.apply (fun p _ => p.withdrawalLimit) { sampleCreated with headBlockTime := 275 } (.claim ⟨0, 1, 2, ⟨5, 0⟩⟩) =
          .ok { sampleCreated with headBlockTime := 275, permits := Function.update sampleCreated.permits 0 (some p') } ∧
        ClaimSpec 275 5 p p' :=
  have reachable : Reachable (fun p _ => p.withdrawalLimit) { sampleCreated with headBlockTime := 275 } :=
    @Reachable.chain _ sampleCreated _
      (@Reachable.operation _ sampleGenesis sampleCreated (.create samplePermit)
        (.genesis (fun _ => rfl) (by decide) (by decide)) ⟨by decide, by decide, by decide⟩ rfl)
      rfl (by decide) (by decide)
  have accepted : WithdrawPermissionClaimEvaluator.doEvaluate (fun p _ => p.withdrawalLimit)
      { sampleCreated with headBlockTime := 275 } ⟨0, 1, 2, ⟨5, 0⟩⟩ = .ok () := rfl
  ⟨reachable, accepted, reachable_claim_meetsSpec _ reachable _ accepted⟩

end FffChain.Chain.WithdrawPermission
