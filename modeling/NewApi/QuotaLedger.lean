import NewApi.BatchUpdate
import NewApi.Runs

/-!
# The wallet and token ledger

Runs of the quota operations in any order, each of which may fail at any statement.
The persisted quota of a live row together with its pending delta moves by exactly
the deltas of the operations that reported success, and a reservation is all or
nothing, so reservations alone never overdraw a wallet or a limited token.
-/
namespace NewApi

/-- One operation on the ledger, with its arguments and the faults it meets. -/
inductive LedgerOp where
  | enqueue (type : BatchUpdateType) (id delta : ℤ)
  | batchPass (type : BatchUpdateType) (now : ℤ) (order : MapOrder) (fails : ℤ → Bool)
  | reserveWallet (env : Env) (userId tokenId quota : ℤ) (withToken : Bool)
  | reserveToken (env : Env) (userId tokenId quota : ℤ)
  | adjustWallet (env : Env) (userId tokenId delta : ℤ) (withToken : Bool)
  | increaseUser (env : Env) (userId quota : ℤ)
  | decreaseUser (env : Env) (userId quota : ℤ)
  | increaseToken (env : Env) (tokenId quota : ℤ)
  | decreaseToken (env : Env) (tokenId quota : ℤ)

open LedgerOp

namespace LedgerOp

/-- What the operation reports and the state it leaves. -/
def exec : LedgerOp → World → Except Err Unit × World
  | enqueue type id delta => addQuotaBatchRecord type id delta
  | batchPass type now order fails => fun w => (.ok (), batchUpdatePass type now order fails w)
  | reserveWallet env userId tokenId quota withToken =>
    reserveWalletQuota env userId tokenId quota withToken
  | reserveToken env userId tokenId quota => reserveTokenQuota env userId tokenId quota
  | adjustWallet env userId tokenId delta withToken =>
    adjustWalletQuota env userId tokenId delta withToken
  | increaseUser env userId quota => increaseUserQuotaDirect env userId quota
  | decreaseUser env userId quota => decreaseUserQuotaDirect env userId quota
  | increaseToken env tokenId quota => increaseTokenQuotaDirect env tokenId quota
  | decreaseToken env tokenId quota => decreaseTokenQuotaDirect env tokenId quota

/-- What the operation is asked to do to the reconciled quotas. -/
def delta : LedgerOp → QuotaDelta
  | enqueue type id delta => .single type id delta
  | batchPass _ _ _ _ => 0
  | reserveWallet _ userId tokenId quota withToken => .wallet userId tokenId (-quota) withToken
  | reserveToken _ _ tokenId quota => .single .tokenQuota tokenId (-quota)
  | adjustWallet _ userId tokenId delta withToken => .wallet userId tokenId (-delta) withToken
  | increaseUser _ userId quota => .single .userQuota userId quota
  | decreaseUser _ userId quota => .single .userQuota userId (-quota)
  | increaseToken _ tokenId quota => .single .tokenQuota tokenId quota
  | decreaseToken _ tokenId quota => .single .tokenQuota tokenId (-quota)

def step (op : LedgerOp) (w : World) : World := (op.exec w).2

/-- The delta of an operation that reported success, zero otherwise. -/
def reported (type : BatchUpdateType) (id : ℤ) (op : LedgerOp) (w : World) : ℤ :=
  if (op.exec w).1.isOk then op.delta type id else 0

end LedgerOp

/-- All that an operation on the ledger can do, with the delta it thereby reports. -/
inductive LedgerEffect (w : World) : World → QuotaDelta → Prop where
  | unchanged : LedgerEffect w w 0
  | queued (type : BatchUpdateType) (id delta : ℤ) :
      LedgerEffect w (addNewRecord type id delta w) (.single type id delta)
  | passed (type : BatchUpdateType) (now : ℤ) (order : MapOrder) (fails : ℤ → Bool) :
      LedgerEffect w (batchUpdatePass type now order fails w) 0
  | user (id delta : ℤ) : LedgerEffect w (w.creditUser id delta) (.single .userQuota id delta)
  | token (now id delta : ℤ) :
      LedgerEffect w (w.creditToken now id delta) (.single .tokenQuota id delta)
  | wallet (now userId tokenId delta : ℤ) (withToken : Bool) :
      LedgerEffect w (w.creditWallet now userId tokenId delta withToken)
        (.wallet userId tokenId delta withToken)

variable {w w' : World}

theorem ok_of_guard {p : Prop} [Decidable p] {e : Err} {v : World} {r : Except Err Unit × World}
    (h : (if p then (.error e, v) else r) = (.ok (), w')) : r = (.ok (), w') := by
  split_ifs at h
  · cases h
  · exact h

/-- What an operation does to the accounts. -/
theorem LedgerOp.effect_of_ok {op : LedgerOp} (h : op.exec w = (.ok (), w')) :
    LedgerEffect w w' op.delta := by
  cases op with
  | enqueue type id delta =>
    cases h
    exact .queued type id delta
  | batchPass type now order fails =>
    cases h
    exact .passed type now order fails
  | reserveWallet env userId tokenId quota withToken =>
    rcases lt_trichotomy quota 0 with hq | rfl | hq
    · simp [exec, reserveWalletQuota, hq] at h
    · cases h
      simpa [delta] using LedgerEffect.unchanged
    · obtain ⟨-, -, rfl⟩ := (reserveWalletQuota_eq_ok hq).mp h
      exact .wallet env.now userId tokenId (-quota) withToken
  | reserveToken env userId tokenId quota =>
    rcases lt_trichotomy quota 0 with hq | rfl | hq
    · simp [exec, reserveTokenQuota, hq] at h
    · cases h
      simpa [delta] using LedgerEffect.unchanged
    · obtain ⟨-, -, -, -, rfl⟩ := (reserveTokenQuota_eq_ok hq).mp h
      exact .token env.now tokenId (-quota)
  | adjustWallet env userId tokenId delta withToken =>
    by_cases hd : delta = 0
    · subst hd
      cases h
      simpa [delta] using LedgerEffect.unchanged
    · obtain ⟨-, -, -, rfl⟩ := (adjustWalletQuota_eq_ok hd).mp h
      exact .wallet env.now userId tokenId (-delta) withToken
  | increaseUser env userId quota =>
    obtain ⟨-, -, -, -, rfl⟩ := adjustUserQuotaWithPending_eq_ok.mp (ok_of_guard h)
    exact .user userId quota
  | decreaseUser env userId quota =>
    obtain ⟨-, -, -, -, rfl⟩ := adjustUserQuotaWithPending_eq_ok.mp (ok_of_guard h)
    exact .user userId (-quota)
  | increaseToken env tokenId quota =>
    obtain ⟨-, -, -, -, rfl⟩ := adjustTokenQuotaWithPending_eq_ok.mp (ok_of_guard h)
    exact .token env.now tokenId quota
  | decreaseToken env tokenId quota =>
    obtain ⟨-, -, -, -, rfl⟩ := adjustTokenQuotaWithPending_eq_ok.mp (ok_of_guard h)
    exact .token env.now tokenId (-quota)

theorem LedgerEffect.quotaStep {d : QuotaDelta} (h : LedgerEffect w w' d) : QuotaStep w w' d := by
  cases h with
  | unchanged => exact QuotaStep.refl w
  | queued type id delta => exact quotaStep_addNewRecord w id delta type
  | passed type now order fails => exact quotaStep_batchUpdatePass w now type order fails
  | user id delta => exact quotaStep_creditUser w id delta
  | token now id delta => exact quotaStep_creditToken w now id delta
  | wallet now userId tokenId delta withToken =>
    exact quotaStep_creditWallet w now userId tokenId delta withToken

theorem LedgerOp.atomic_exec (op : LedgerOp) : Atomic op.exec := by
  cases op with
  | enqueue type id delta | batchPass type now order fails =>
    intro w e w' h
    cases h
  | reserveWallet => exact atomic_reserveWalletQuota _ _ _ _ _
  | reserveToken => exact atomic_reserveTokenQuota _ _ _ _
  | adjustWallet => exact atomic_adjustWalletQuota _ _ _ _ _
  | increaseUser | decreaseUser =>
    exact (atomic_return _).ite (atomic_adjustUserQuotaWithPending _ _ _)
  | increaseToken | decreaseToken => exact (atomic_return _).ite atomic_withReconciledTokenQuota

/-- Step lemma of the ledger: an operation has the effect it reported, and no other. -/
theorem LedgerOp.effect (op : LedgerOp) (w : World) :
    LedgerEffect w (op.step w) (fun type id => op.reported type id w) := by
  rcases op.atomic_exec.cases w with ⟨⟨⟩, w', h⟩ | ⟨e, h⟩
  · simpa [step, reported, h, Except.isOk, Except.toBool] using effect_of_ok h
  have hzero : (fun type id => op.reported type id w) = (0 : QuotaDelta) := by
    funext type id
    simp [reported, h, Except.isOk, Except.toBool]
  rw [step, h, hzero]
  exact .unchanged

/-- In every interleaving of the quota operations, the persisted quota of a live user
or token plus its pending delta is the initial sum plus the deltas of exactly the
operations that reported success, and no token's remaining plus used quota changes. -/
theorem ledger_law (ops : List LedgerOp) (w : World) (type : BatchUpdateType) (id : ℤ)
    (hlive : w.Live type id) :
    (run step ops w).rowQuota type id + (run step ops w).pendingQuota type id =
        w.rowQuota type id + w.pendingQuota type id + total step (reported type id) ops w ∧
      ∀ tokenId, (run step ops w).tokenGranted tokenId = w.tokenGranted tokenId := by
  constructor
  · exact run_total (I := fun v => v.Live type id) (q := fun v => v.reconciled type id)
      (fun op v hv => (op.effect v).quotaStep.live type id hv)
      (fun op v hv => (op.effect v).quotaStep.moved type id hv) ops hlive
  · intro tokenId
    exact run_invariant_always (I := fun v => v.tokenGranted tokenId = w.tokenGranted tokenId)
      (fun op v hv => ((op.effect v).quotaStep.granted tokenId).trans hv) ops rfl

/-- A user with quota 10 and one token with 6 left, and a queued refund of 2. -/
def sampleLedger : World :=
  { World.empty with
    users := World.empty.users.put 1 { quota := 10, usedQuota := 0, deleted := false }
    tokens := World.empty.tokens.put 7
      { userId := 1, remainQuota := 6, usedQuota := 0, unlimitedQuota := false
        accessedTime := 0, deleted := false, key := "k" }
    userQuotaBatch := PendingMap.add ∅ 1 2 }

/-- A reservation, a failed pass, a rejected reservation and a refund. -/
def sampleOps : List LedgerOp :=
  [.reserveWallet (.calm 5) 1 7 4 true, .enqueue .userQuota 1 3,
    .batchPass .userQuota 6 .asStored (fun _ => true), .reserveWallet (.calm 7) 1 7 9 true,
    .adjustWallet (.calm 8) 1 7 (-1) true]

theorem ledger_law_sample : (run step sampleOps sampleLedger).rowQuota .userQuota 1 +
        (run step sampleOps sampleLedger).pendingQuota .userQuota 1 =
      sampleLedger.rowQuota .userQuota 1 + sampleLedger.pendingQuota .userQuota 1 +
        total step (reported .userQuota 1) sampleOps sampleLedger ∧
      ∀ tokenId, (run step sampleOps sampleLedger).tokenGranted tokenId =
        sampleLedger.tokenGranted tokenId :=
  ledger_law sampleOps sampleLedger .userQuota 1 ⟨_, rfl, rfl⟩

/-- The sample run ends with all twelve units less the four reserved, three queued and
one refunded, folded into the row. -/
example : (run step sampleOps sampleLedger).rowQuota .userQuota 1 = 12 := by decide

inductive Reservation where
  | wallet (env : Env) (userId tokenId quota : ℤ) (withToken : Bool)
  | token (env : Env) (userId tokenId quota : ℤ)

namespace Reservation

def exec : Reservation → World → Except Err Unit × World
  | wallet env userId tokenId quota withToken =>
    reserveWalletQuota env userId tokenId quota withToken
  | token env userId tokenId quota => reserveTokenQuota env userId tokenId quota

def step (r : Reservation) (w : World) : World := (r.exec w).2

theorem atomic_exec (r : Reservation) : Atomic r.exec := by
  cases r with
  | wallet => exact atomic_reserveWalletQuota _ _ _ _ _
  | token => exact atomic_reserveTokenQuota _ _ _ _

end Reservation

/-- The token row, if there is one, is a limited one. -/
def World.TokenLimited (w : World) (id : ℤ) : Prop :=
  ∀ r, w.tokens id = some r → r.unlimitedQuota = false

section Coverage
variable {now id delta k : ℤ}

theorem tokenLimited_creditToken (h : w.TokenLimited k) :
    (w.creditToken now id delta).TokenLimited k := by
  intro r hr
  by_cases hk : k = id
  · subst hk
    simp only [World.creditToken, Table.modify_self, Option.map_eq_some_iff] at hr
    obtain ⟨r', hr', rfl⟩ := hr
    exact h r' hr'
  · exact h r (by simpa [World.creditToken, Table.modify_of_ne _ _ hk] using hr)

/-- A credit that the row can bear leaves no negative wallet behind. -/
theorem nonneg_creditUser {r : User} (hr : w.users id = some r)
    (hcov : 0 ≤ w.reconciled .userQuota id + delta) (hk : 0 ≤ w.reconciled .userQuota k) :
    0 ≤ (w.creditUser id delta).reconciled .userQuota k := by
  rw [moved_creditUser hr delta .userQuota k]
  by_cases h : k = id
  · subst h
    simpa [QuotaDelta.single] using hcov
  · simpa [QuotaDelta.single, h] using hk

theorem nonneg_creditToken {r : Token} (hr : w.tokens id = some r)
    (hcov : k = id → 0 ≤ w.reconciled .tokenQuota id + delta)
    (hk : 0 ≤ w.reconciled .tokenQuota k) :
    0 ≤ (w.creditToken now id delta).reconciled .tokenQuota k := by
  rw [moved_creditToken hr now delta .tokenQuota k]
  by_cases h : k = id
  · subst h
    simpa [QuotaDelta.single] using hcov rfl
  · simpa [QuotaDelta.single, h] using hk

variable {userId tokenId quota : ℤ} {withToken : Bool}

theorem WalletCovers.user_le (h : WalletCovers userId tokenId quota withToken w) :
    quota ≤ w.reconciled .userQuota userId := by
  obtain ⟨r, hr, -, hle⟩ := h.wallet
  simpa [World.reconciled, World.rowQuota, World.pendingQuota, World.batchStore, hr] using hle

theorem limited_token_covers {r : Token} (hr : w.tokens tokenId = some r)
    (hlimi : w.TokenLimited tokenId) (h : r.unlimitedQuota = true ∨
      quota ≤ r.remainQuota + PendingMap.amount w.tokenQuotaBatch tokenId) :
    quota ≤ w.reconciled .tokenQuota tokenId := by
  rcases h with hu | hle
  · rw [hlimi r hr] at hu
    cases hu
  · simpa [World.reconciled, World.rowQuota, World.pendingQuota, World.batchStore, hr] using hle

theorem reconciled_creditWallet_user (delta k : ℤ) :
    (w.creditWallet now userId tokenId delta withToken).reconciled .userQuota k =
      (w.creditUser userId delta).reconciled .userQuota k := by
  cases withToken <;> rfl

end Coverage

variable (r : Reservation)

/-- All that a reservation can do: nothing, or lower a wallet or a token that covers it. -/
inductive ReservationEffect (w : World) : World → Prop where
  | unchanged : ReservationEffect w w
  | wallet {now userId tokenId quota : ℤ} {withToken : Bool} (hq : 0 < quota)
      (hcov : WalletCovers userId tokenId quota withToken w) :
      ReservationEffect w (w.creditWallet now userId tokenId (-quota) withToken)
  | token {now tokenId quota : ℤ} {r : Token} (hq : 0 < quota) (hr : w.tokens tokenId = some r)
      (hcov : r.unlimitedQuota = true ∨
        quota ≤ r.remainQuota + PendingMap.amount w.tokenQuotaBatch tokenId) :
      ReservationEffect w (w.creditToken now tokenId (-quota))

theorem Reservation.effect (w : World) : ReservationEffect w (r.step w) := by
  rcases r.atomic_exec.cases w with ⟨⟨⟩, w', h⟩ | ⟨e, h⟩
  · simp only [step, h]
    cases r with
    | wallet env userId tokenId quota withToken =>
      rcases lt_trichotomy quota 0 with hq | rfl | hq
      · simp [exec, reserveWalletQuota, hq] at h
      · cases h
        exact .unchanged
      · obtain ⟨-, hcov, rfl⟩ := (reserveWalletQuota_eq_ok hq).mp h
        exact .wallet hq hcov
    | token env userId tokenId quota =>
      rcases lt_trichotomy quota 0 with hq | rfl | hq
      · simp [exec, reserveTokenQuota, hq] at h
      · cases h
        exact .unchanged
      · obtain ⟨-, -, -, ⟨r, hr, -, -, hcov⟩, rfl⟩ := (reserveTokenQuota_eq_ok hq).mp h
        exact .token hq hr hcov
  · simp only [step, h]
    exact .unchanged

/-- Step lemma: a reservation leaves every wallet that was not negative so. -/
theorem Reservation.wallet_nonneg {k : ℤ} (hk : 0 ≤ w.reconciled .userQuota k) :
    0 ≤ (r.step w).reconciled .userQuota k := by
  have heff := r.effect w
  generalize r.step w = w' at heff ⊢
  cases heff with
  | unchanged | token hq hr hcov => exact hk
  | wallet hq hcov =>
    rw [reconciled_creditWallet_user]
    have hle := hcov.user_le
    obtain ⟨u, hu, -⟩ := hcov.wallet
    exact nonneg_creditUser hu (by omega) hk

/-- Step lemma for tokens: a limited token stays limited and non-negative. -/
theorem Reservation.token_nonneg {k : ℤ} (hk : w.TokenLimited k ∧ 0 ≤ w.reconciled .tokenQuota k) :
    (r.step w).TokenLimited k ∧ 0 ≤ (r.step w).reconciled .tokenQuota k := by
  have heff := r.effect w
  generalize r.step w = w' at heff ⊢
  cases heff with
  | unchanged => exact hk
  | @wallet now userId tokenId quota withToken hq hcov =>
    cases withToken with
    | false => exact hk
    | true =>
      obtain ⟨s, hs, -, -, hor⟩ := hcov.token rfl
      refine ⟨tokenLimited_creditToken hk.1, nonneg_creditToken hs ?_ hk.2⟩
      rintro rfl
      have hle := limited_token_covers hs hk.1 hor
      exact sub_nonneg.mpr hle
  | token hq hr hcov =>
    refine ⟨tokenLimited_creditToken hk.1, nonneg_creditToken hr ?_ hk.2⟩
    rintro rfl
    have hle := limited_token_covers hr hk.1 hcov
    omega

theorem WalletStatementsPass.of_calm {env : Env} (hcalm : ∀ i, env.fault i = false)
    {userId tokenId quota : ℤ} {withToken : Bool}
    (h : WalletCovers userId tokenId quota withToken w) :
    WalletStatementsPass env userId tokenId withToken w := by
  obtain ⟨r, hr, -⟩ := h.wallet
  refine ⟨hcalm _, .inr ⟨hcalm _, r, hr⟩, hcalm _, fun ht => ?_, fun _ => hcalm _⟩
  obtain ⟨s, hs, -⟩ := h.token ht
  exact .inr ⟨hcalm _, s, hs⟩

/-- A granted reservation lowers the wallet and the given token by exactly `quota`. -/
theorem reserveWalletQuota_lowers {env : Env} {userId tokenId quota : ℤ} {withToken : Bool}
    (hq : 0 < quota) (h : reserveWalletQuota env userId tokenId quota withToken w = (.ok (), w')) :
    w'.reconciled .userQuota userId = w.reconciled .userQuota userId - quota ∧ (withToken = true →
        w'.reconciled .tokenQuota tokenId = w.reconciled .tokenQuota tokenId - quota) := by
  obtain ⟨-, hcov, rfl⟩ := (reserveWalletQuota_eq_ok hq).mp h
  obtain ⟨u, hu, -⟩ := hcov.wallet
  have hmv := moved_creditWallet hu
    (fun ht => (hcov.token ht).imp fun s hs => hs.1) env.now (-quota)
  constructor
  · rw [hmv .userQuota userId]
    cases withToken <;> simp [QuotaDelta.wallet, QuotaDelta.single, sub_eq_add_neg]
  · rintro rfl
    rw [hmv .tokenQuota tokenId]
    simp [QuotaDelta.wallet, QuotaDelta.single, sub_eq_add_neg]

/-- After any earlier reservations, a reservation of `quota` is granted exactly when the
reconciled wallet and the given token of that user cover it; it lowers both, or leaves
the whole state as it was. No wallet and no limited token has gone below zero. -/
theorem reserveWalletQuota_all_or_nothing (earlier : List Reservation) (w₀ : World) (env : Env)
    (userId tokenId quota : ℤ) (withToken : Bool) (hq : 0 < quota) :
    let w := run Reservation.step earlier w₀
    let result := reserveWalletQuota env userId tokenId quota withToken w
    ((∀ i, env.fault i = false) →
        (result.1 = .ok () ↔ WalletCovers userId tokenId quota withToken w)) ∧
      (result.1 = .ok () → WalletCovers userId tokenId quota withToken w ∧
        result.2.reconciled .userQuota userId = w.reconciled .userQuota userId - quota ∧
        (withToken = true → result.2.reconciled .tokenQuota tokenId =
          w.reconciled .tokenQuota tokenId - quota)) ∧
      (∀ e, result.1 = .error e → result.2 = w) ∧
      (∀ id, 0 ≤ w₀.reconciled .userQuota id → 0 ≤ w.reconciled .userQuota id) ∧
      (∀ id, w₀.TokenLimited id → 0 ≤ w₀.reconciled .tokenQuota id →
        0 ≤ w.reconciled .tokenQuota id) := by
  intro w result
  have hatomic := atomic_reserveWalletQuota env userId tokenId quota withToken
  refine ⟨fun hcalm => ⟨fun hok => ?_, fun hcov => ?_⟩, fun hok => ?_, fun e he => ?_,
    fun id h => ?_, fun id hl h => ?_⟩
  · exact ((reserveWalletQuota_eq_ok hq).mp (Prod.ext hok rfl)).2.1
  · have hgrant := (reserveWalletQuota_eq_ok hq).mpr
      ⟨WalletStatementsPass.of_calm hcalm hcov, hcov, rfl⟩
    exact congrArg Prod.fst hgrant
  · have hgrant : reserveWalletQuota env userId tokenId quota withToken w =
        (.ok (), result.2) := Prod.ext hok rfl
    exact ⟨((reserveWalletQuota_eq_ok hq).mp hgrant).2.1, reserveWalletQuota_lowers hq hgrant⟩
  · exact hatomic w e result.2 (Prod.ext he rfl)
  · exact run_invariant_always (I := fun v : World => 0 ≤ v.reconciled .userQuota id)
      (fun r v hv => r.wallet_nonneg hv) earlier h
  · exact (run_invariant_always
      (I := fun v : World => v.TokenLimited id ∧ 0 ≤ v.reconciled .tokenQuota id)
      (fun r v hv => r.token_nonneg hv) earlier ⟨hl, h⟩).2

theorem reserveWalletQuota_all_or_nothing_sample :
    let w := run Reservation.step [.wallet (.calm 1) 1 7 4 true] sampleLedger
    let result := reserveWalletQuota (.calm 2) 1 7 3 true w
    ((∀ i, (Env.calm 2).fault i = false) → (result.1 = .ok () ↔ WalletCovers 1 7 3 true w)) ∧
      (result.1 = .ok () → WalletCovers 1 7 3 true w ∧
        result.2.reconciled .userQuota 1 = w.reconciled .userQuota 1 - 3 ∧ (true = true →
          result.2.reconciled .tokenQuota 7 = w.reconciled .tokenQuota 7 - 3)) ∧
      (∀ e, result.1 = .error e → result.2 = w) ∧
      (∀ id, 0 ≤ sampleLedger.reconciled .userQuota id → 0 ≤ w.reconciled .userQuota id) ∧
      (∀ id, sampleLedger.TokenLimited id → 0 ≤ sampleLedger.reconciled .tokenQuota id →
        0 ≤ w.reconciled .tokenQuota id) :=
  reserveWalletQuota_all_or_nothing [.wallet (.calm 1) 1 7 4 true] sampleLedger (.calm 2)
    1 7 3 true (by decide)

end NewApi
