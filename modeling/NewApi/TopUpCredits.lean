import NewApi.Runs
import NewApi.TopUps

/-!
# Credits of top-up orders

Completions, status updates and the requests that create orders, in any interleaving of their
transactions. Three handlers save a copy of an order that they hold: the two Waffo requests,
when the gateway refuses the order they have inserted, and Stripe's notice of a failed
payment. `copies` are those copies, and `credits` records what was credited for which order.
-/
namespace NewApi

/-- What a user was given for an order. -/
structure Credit where
  tradeNo : String
  userId : ℤ
  quota : ℚ
  deriving DecidableEq

/-- The rows, the copies that requests hold, and all credits so far. -/
structure TopUpState where
  world : TopUpWorld
  copies : List (String × TopUp)
  credits : List Credit

open TopUpState

/-- The notifications of the providers. -/
inductive CompletionCall where
  | stripe (customerId : String)
  | epay (actualPaymentMethod : String)
  | creem (customerEmail : String)
  | waffo
  | waffoPancake
  | manual

def CompletionCall.run (quotaPerUnit : ℚ) (env : Env) (tradeNo : String) :
    CompletionCall → TopUpWorld → Except Err (Option ℚ) × TopUpWorld
  | .stripe customerId => recharge quotaPerUnit env customerId tradeNo
  | .epay actualPaymentMethod => rechargeEpay quotaPerUnit env actualPaymentMethod tradeNo
  | .creem customerEmail => rechargeCreem env customerEmail tradeNo
  | .waffo => rechargeWaffo quotaPerUnit env tradeNo
  | .waffoPancake => rechargeWaffoPancake quotaPerUnit env tradeNo
  | .manual => manualCompleteTopUp quotaPerUnit env tradeNo

/-- All that can happen to orders. -/
inductive TopUpCall where
  | create (env : Env) (tradeNo : String) (order : TopUp)
  | complete (call : CompletionCall) (env : Env) (tradeNo : String)
  | expire (provider : Option PaymentProvider) (env : Env) (tradeNo : String)
  | fail (provider : Option PaymentProvider) (env : Env) (tradeNo : String)
  | loadFailed (tradeNo : String)
  | saveFailed (env : Env) (copy : ℕ)

open TopUpCall

namespace TopUpState
variable (s : TopUpState)

/-- The requests whose handlers may save their copy later. -/
def keepsCopy (t : TopUp) : Bool :=
  decide (t.paymentProvider = .waffo) || decide (t.paymentProvider = .waffoPancake)

/-- A trade number is used once. -/
def create (env : Env) (tradeNo : String) (order : TopUp) : TopUpState :=
  if env.fault 0 ∨ (s.world.orders tradeNo).isSome then s
  else
    let topUp := { order with status := .pending, completeTime := 0 }
    { s with
      world := { s.world with orders := s.world.orders.put tradeNo topUp }
      copies := s.copies ++ if keepsCopy topUp then [(tradeNo, topUp)] else [] }

/-- What a completion returned, for the order that it found. -/
def creditsOf (tradeNo : String) : Except Err (Option ℚ) → List Credit
  | .ok (some quota) => ((s.world.orders tradeNo).map fun t => ⟨tradeNo, t.userId, quota⟩).toList
  | _ => []

def complete (quotaPerUnit : ℚ) (call : CompletionCall) (env : Env) (tradeNo : String) :
    TopUpState :=
  let r := call.run quotaPerUnit env tradeNo s.world
  { s with world := r.2, credits := s.credits ++ s.creditsOf tradeNo r.1 }

/-- Stripe's notice of a failed payment reads the order and checks it. -/
def loadFailed (tradeNo : String) : TopUpState :=
  match s.world.orders tradeNo with
  | some t => if t.paymentProvider = .stripe ∧ t.status = .pending
      then { s with copies := s.copies ++ [(tradeNo, t)] } else s
  | none => s

/-- The whole row is saved, whatever it is by now. -/
def saveFailed (env : Env) (copy : ℕ) : TopUpState :=
  match s.copies[copy]? with
  | some (tradeNo, t) => if env.fault 0 then s else
      { s with world := { s.world with
          orders := s.world.orders.put tradeNo { t with status := .failed } } }
  | none => s

def setStatus (target : TopUpStatus) (provider : Option PaymentProvider) (env : Env)
    (tradeNo : String) : TopUpState :=
  { s with world := (updatePendingTopUpStatus env provider target tradeNo s.world).2 }

end TopUpState

def TopUpCall.step (quotaPerUnit : ℚ) : TopUpCall → TopUpState → TopUpState
  | .create env tradeNo order, s => s.create env tradeNo order
  | .complete call env tradeNo, s => s.complete quotaPerUnit call env tradeNo
  | .expire provider env tradeNo, s => s.setStatus .expired provider env tradeNo
  | .fail provider env tradeNo, s => s.setStatus .failed provider env tradeNo
  | .loadFailed tradeNo, s => s.loadFailed tradeNo
  | .saveFailed env copy, s => s.saveFailed env copy

/-- What a step that saves no copy does to the rows and the credits: nothing, a new pending
order, a credit of a pending order, or a pending order closed without a credit. -/
inductive TopUpEffect (s s' : TopUpState) : Prop where
  | none (world : s'.world = s.world) (credits : s'.credits = s.credits)
  | created (tradeNo : String) (t : TopUp) (absent : s.world.orders tradeNo = .none)
      (pending : t.status = .pending) (users : s'.world.users = s.world.users)
      (orders : s'.world.orders = s.world.orders.put tradeNo t) (credits : s'.credits = s.credits)
  | credited (tradeNo : String) (t t' : TopUp) (quota : ℚ) (f : TopUpUser → TopUpUser)
      (order : s.world.orders tradeNo = some t) (pending : t.status = .pending)
      (success : t'.status = .success) (quota_eq : ∀ u, (f u).quota = u.quota + quota)
      (user : ∃ u, s.world.users t.userId = some u)
      (users : s'.world.users = s.world.users.modify t.userId f)
      (orders : s'.world.orders = s.world.orders.put tradeNo t')
      (credits : s'.credits = s.credits ++ [⟨tradeNo, t.userId, quota⟩])
  | closed (tradeNo : String) (t t' : TopUp) (order : s.world.orders tradeNo = some t)
      (pending : t.status = .pending) (status : t'.status = .failed ∨ t'.status = .expired)
      (users : s'.world.users = s.world.users)
      (orders : s'.world.orders = s.world.orders.put tradeNo t') (credits : s'.credits = s.credits)

namespace TopUpState
variable (s : TopUpState)

theorem create_effect (env : Env) (tradeNo : String) (order : TopUp) :
    TopUpEffect s (s.create env tradeNo order) := by
  unfold create
  split
  · exact .none rfl rfl
  rename_i h
  have habsent : s.world.orders tradeNo = none := by
    cases hord : s.world.orders tradeNo with
    | none => rfl
    | some t => exact absurd (.inr (by simp [hord])) h
  exact .created tradeNo _ habsent rfl rfl rfl rfl

theorem complete_effect (c : Completion) (env : Env) (empty : String) (hide : Err → Err)
    (tradeNo : String) : TopUpEffect s { s with
      world := (c.run env empty hide tradeNo s.world).2
      credits := s.credits ++ s.creditsOf tradeNo (c.run env empty hide tradeNo s.world).1 } := by
  rcases c.run_cases env empty hide tradeNo s.world with
    ⟨t, quota, hord, -, hpend, -, huser, hrun⟩ | ⟨hwd, hnone⟩
  · rw [hrun]
    exact .credited tradeNo t (c.completed env t) quota (c.credited quota) hord hpend rfl
      (fun _ => rfl) huser rfl rfl (by simp [creditsOf, hord])
  refine .none hwd ?_
  have hemp : s.creditsOf tradeNo (c.run env empty hide tradeNo s.world).1 = [] := by
    unfold creditsOf
    split
    · rename_i quota hr
      exact absurd hr (hnone quota)
    · rfl
  simp [hemp]

theorem setStatus_effect {target : TopUpStatus} (htgt : target = .failed ∨ target = .expired)
    (provider : Option PaymentProvider) (env : Env) (tradeNo : String) :
    TopUpEffect s (s.setStatus target provider env tradeNo) := by
  unfold setStatus
  rcases updatePendingTopUpStatus_cases env provider target tradeNo s.world with
    hsame | ⟨t, hord, hpend, hwd⟩
  · exact .none hsame rfl
  · rw [hwd]
    exact .closed tradeNo t _ hord hpend htgt rfl rfl rfl

theorem loadFailed_effect (tradeNo : String) : TopUpEffect s (s.loadFailed tradeNo) := by
  unfold loadFailed
  split
  · split <;> exact .none rfl rfl
  · exact .none rfl rfl

/-- A save takes place unless there is no copy or the database refuses. -/
theorem saveFailed_cases (env : Env) (copy : ℕ) :
    (s.saveFailed env copy = s ∧ (env.fault 0 = true ∨ s.copies[copy]? = none)) ∨
      ∃ tradeNo t, s.copies[copy]? = some (tradeNo, t) ∧ env.fault 0 = false ∧
        s.saveFailed env copy = { s with world := { s.world with
          orders := s.world.orders.put tradeNo { t with status := .failed } } } := by
  unfold saveFailed
  cases hcopy : s.copies[copy]? with
  | none => exact .inl ⟨rfl, .inr rfl⟩
  | some held =>
    obtain ⟨tradeNo, t⟩ := held
    cases hflt : env.fault 0 with
    | true => exact .inl ⟨rfl, .inl rfl⟩
    | false => exact .inr ⟨tradeNo, t, rfl, rfl, rfl⟩

end TopUpState

namespace TopUpState
variable (s : TopUpState) (tradeNo : String)

def creditsFor : List Credit := s.credits.filter fun c => decide (c.tradeNo = tradeNo)

def succeeded : Bool := (s.world.orders tradeNo).any fun t => decide (t.status = .success)

def leftPending : Bool := (s.world.orders tradeNo).any fun t => decide (t.status ≠ .pending)

/-- The order is successful exactly when it was credited. -/
def StatusTrue : Prop := s.succeeded tradeNo = true ↔ s.creditsFor tradeNo ≠ []

instance : Decidable (s.StatusTrue tradeNo) :=
  inferInstanceAs (Decidable (s.succeeded tradeNo = true ↔ s.creditsFor tradeNo ≠ []))

/-- An order that has not left pending was not credited, and none was credited twice. -/
structure CreditedOnce : Prop where
  fresh : s.leftPending tradeNo = false → s.creditsFor tradeNo = []
  once : (s.creditsFor tradeNo).length ≤ 1

def creditedTo (userId : ℤ) : ℚ :=
  ((s.credits.filter fun c => decide (c.userId = userId)).map Credit.quota).sum

/-- The wallets hold what they held at first and what was credited since. -/
def WalletsKept (users : Table ℤ TopUpUser) : Prop :=
  ∀ userId, (s.world.users userId).map TopUpUser.quota =
    (users userId).map fun u => u.quota + s.creditedTo userId

end TopUpState

/-- The call saves its copy of the order as failed although the order has succeeded. -/
def TopUpCall.overwrites (tradeNo : String) : TopUpCall → TopUpState → Bool
  | .saveFailed env copy, s =>
    !env.fault 0 && s.copies[copy]?.any (fun held => decide (held.1 = tradeNo)) &&
      s.succeeded tradeNo
  | _, _ => false

/-- What a step that overwrites no successful order does to one order. -/
inductive OrderEffect (tradeNo : String) (s s' : TopUpState) : Prop where
  | unchanged (succeeded : s'.succeeded tradeNo = s.succeeded tradeNo)
      (left : s'.leftPending tradeNo = s.leftPending tradeNo)
      (credits : s'.creditsFor tradeNo = s.creditsFor tradeNo)
  | credited (credit : Credit) (pending : s.leftPending tradeNo = false)
      (succeeded : s'.succeeded tradeNo = true) (left : s'.leftPending tradeNo = true)
      (credits : s'.creditsFor tradeNo = s.creditsFor tradeNo ++ [credit])
  | closed (pending : s.succeeded tradeNo = false) (succeeded : s'.succeeded tradeNo = false)
      (left : s'.leftPending tradeNo = true) (credits : s'.creditsFor tradeNo = s.creditsFor tradeNo)

/-- A successful order was saved as failed. -/
structure Overwritten (tradeNo : String) (s s' : TopUpState) : Prop where
  success : s.succeeded tradeNo = true
  succeeded : s'.succeeded tradeNo = false
  left : s'.leftPending tradeNo = true
  credits : s'.creditsFor tradeNo = s.creditsFor tradeNo

section Runs
variable {s s' : TopUpState} {tradeNo : String}

theorem creditsFor_congr (h : s'.credits = s.credits) :
    s'.creditsFor tradeNo = s.creditsFor tradeNo := congrArg (List.filter _) h

theorem succeeded_of_row {t : TopUp} (h : s.world.orders tradeNo = some t) :
    s.succeeded tradeNo = decide (t.status = .success) := by
  simp [succeeded, h]

theorem leftPending_of_row {t : TopUp} (h : s.world.orders tradeNo = some t) :
    s.leftPending tradeNo = decide (t.status ≠ .pending) := by
  simp [leftPending, h]

theorem OrderEffect.of_row (hord : s'.world.orders tradeNo = s.world.orders tradeNo)
    (hcred : s'.creditsFor tradeNo = s.creditsFor tradeNo) : OrderEffect tradeNo s s' := by
  refine .unchanged ?_ ?_ hcred
  · rw [succeeded, hord, succeeded]
  · rw [leftPending, hord, leftPending]

theorem TopUpEffect.order (h : TopUpEffect s s') (tradeNo : String) : OrderEffect tradeNo s s' := by
  cases h with
  | none world credits => exact .of_row (by rw [world]) (creditsFor_congr credits)
  | created key t absent pending users orders credits =>
    by_cases hkey : tradeNo = key
    · subst hkey
      have hrow : s'.world.orders tradeNo = some t := by rw [orders, Table.put_self]
      refine .unchanged ?_ ?_ (creditsFor_congr credits)
      · rw [succeeded_of_row hrow]
        simp [succeeded, absent, pending]
      · rw [leftPending_of_row hrow]
        simp [leftPending, absent, pending]
    · exact .of_row (by rw [orders, Table.put_of_ne _ _ hkey]) (creditsFor_congr credits)
  | credited key t t' quota f order pending success quota_eq user users orders credits =>
    by_cases hkey : tradeNo = key
    · subst hkey
      have hrow : s'.world.orders tradeNo = some t' := by rw [orders, Table.put_self]
      refine .credited ⟨tradeNo, t.userId, quota⟩ ?_ ?_ ?_ ?_
      · simp [leftPending_of_row order, pending]
      · simp [succeeded_of_row hrow, success]
      · simp [leftPending_of_row hrow, success]
      · simp [creditsFor, credits]
    · refine .of_row (by rw [orders, Table.put_of_ne _ _ hkey]) ?_
      have hoth : ¬ key = tradeNo := fun h => hkey h.symm
      simp [creditsFor, credits, hoth]
  | closed key t t' order pending status users orders credits =>
    by_cases hkey : tradeNo = key
    · subst hkey
      have hrow : s'.world.orders tradeNo = some t' := by rw [orders, Table.put_self]
      refine .closed ?_ ?_ ?_ (creditsFor_congr credits)
      · simp [succeeded_of_row order, pending]
      · rcases status with h | h <;> simp [succeeded_of_row hrow, h]
      · rcases status with h | h <;> simp [leftPending_of_row hrow, h]
    · exact .of_row (by rw [orders, Table.put_of_ne _ _ hkey]) (creditsFor_congr credits)

/-- A save closes an open order, or overwrites a successful one. -/
theorem TopUpState.saveFailed_order (s : TopUpState) (env : Env) (copy : ℕ) (tradeNo : String) :
    (OrderEffect tradeNo s (s.saveFailed env copy) ∧
        overwrites tradeNo (.saveFailed env copy) s = false) ∨
      (Overwritten tradeNo s (s.saveFailed env copy) ∧
        overwrites tradeNo (.saveFailed env copy) s = true) := by
  rcases s.saveFailed_cases env copy with ⟨hsame, hidle⟩ | ⟨key, t, hcopy, hflt, hsaved⟩
  · rw [hsame]
    refine .inl ⟨.of_row rfl rfl, ?_⟩
    rcases hidle with h | h <;> simp [overwrites, h]
  rw [hsaved]
  by_cases hkey : tradeNo = key
  · subst hkey
    have hsuc : overwrites tradeNo (.saveFailed env copy) s = s.succeeded tradeNo := by
      simp [overwrites, hflt, hcopy]
    rw [hsuc]
    cases hs : s.succeeded tradeNo with
    | false => exact .inl ⟨.closed hs (by simp [succeeded]) (by simp [leftPending]) rfl, rfl⟩
    | true => exact .inr ⟨⟨hs, by simp [succeeded], by simp [leftPending], rfl⟩, rfl⟩
  · refine .inl ⟨.of_row (Table.put_of_ne _ _ hkey) rfl, ?_⟩
    simp [overwrites, hcopy, Ne.symm hkey]

/-- All that a call can do to one order. -/
theorem TopUpCall.step_order (quotaPerUnit : ℚ) (call : TopUpCall) (s : TopUpState)
    (tradeNo : String) :
    (OrderEffect tradeNo s (call.step quotaPerUnit s) ∧ call.overwrites tradeNo s = false) ∨
      (Overwritten tradeNo s (call.step quotaPerUnit s) ∧ call.overwrites tradeNo s = true) := by
  cases call with
  | create env key order =>
    exact .inl ⟨(s.create_effect env key order).order tradeNo, rfl⟩
  | complete call env key =>
    cases call <;> exact .inl ⟨(s.complete_effect _ env _ _ key).order tradeNo, rfl⟩
  | expire provider env key =>
    exact .inl ⟨(s.setStatus_effect (.inr rfl) provider env key).order tradeNo, rfl⟩
  | fail provider env key =>
    exact .inl ⟨(s.setStatus_effect (.inl rfl) provider env key).order tradeNo, rfl⟩
  | loadFailed key => exact .inl ⟨(s.loadFailed_effect key).order tradeNo, rfl⟩
  | saveFailed env copy => exact s.saveFailed_order env copy tradeNo

theorem OrderEffect.creditedOnce (h : OrderEffect tradeNo s s') (hs : s.CreditedOnce tradeNo) :
    s'.CreditedOnce tradeNo := by
  cases h with
  | unchanged succeeded left credits =>
    exact ⟨fun hleft => by rw [credits, hs.fresh (left ▸ hleft)], by rw [credits]; exact hs.once⟩
  | credited credit pending succeeded left credits =>
    refine ⟨fun hleft => ?_, ?_⟩
    · rw [left] at hleft
      cases hleft
    · rw [credits, hs.fresh pending]
      simp
  | closed pending succeeded left credits =>
    refine ⟨fun hleft => ?_, by rw [credits]; exact hs.once⟩
    rw [left] at hleft
    cases hleft

theorem Overwritten.creditedOnce (h : Overwritten tradeNo s s') (hs : s.CreditedOnce tradeNo) :
    s'.CreditedOnce tradeNo := by
  refine ⟨fun hleft => ?_, by rw [h.credits]; exact hs.once⟩
  rw [h.left] at hleft
  cases hleft

theorem OrderEffect.leftPending (h : OrderEffect tradeNo s s') (hs : s.leftPending tradeNo = true) :
    s'.leftPending tradeNo = true := by
  cases h with
  | unchanged succeeded left credits => exact left.trans hs
  | credited credit pending succeeded left credits | closed pending succeeded left credits =>
    exact left

theorem OrderEffect.statusTrue (h : OrderEffect tradeNo s s') (hs : s.StatusTrue tradeNo) :
    s'.StatusTrue tradeNo := by
  cases h with
  | unchanged succeeded left credits =>
    rw [TopUpState.StatusTrue, succeeded, credits]
    exact hs
  | credited credit pending succeeded left credits =>
    rw [TopUpState.StatusTrue, succeeded, credits]
    simp
  | closed pending succeeded left credits =>
    have hnone : s.creditsFor tradeNo = [] := by
      by_contra hne
      rw [hs.mpr hne] at pending
      cases pending
    rw [TopUpState.StatusTrue, succeeded, credits, hnone]
    simp

/-- The credit of the overwritten order stays. -/
theorem Overwritten.not_statusTrue (h : Overwritten tradeNo s s') (hs : s.StatusTrue tradeNo) :
    ¬ s'.StatusTrue tradeNo := by
  rw [TopUpState.StatusTrue, h.succeeded, h.credits]
  have hcred := hs.mp h.success
  simp [hcred]

theorem creditedTo_append {credit : Credit} (h : s'.credits = s.credits ++ [credit]) (userId : ℤ) :
    s'.creditedTo userId =
      s.creditedTo userId + if credit.userId = userId then credit.quota else 0 := by
  by_cases huser : credit.userId = userId <;> simp [creditedTo, h, huser]

variable {users : Table ℤ TopUpUser}

theorem walletsKept_congr (husers : s'.world.users = s.world.users)
    (hcred : s'.credits = s.credits) (hs : s.WalletsKept users) : s'.WalletsKept users := by
  intro userId
  rw [husers, creditedTo, hcred]
  exact hs userId

theorem TopUpEffect.walletsKept (h : TopUpEffect s s')
    (hs : s.WalletsKept users) : s'.WalletsKept users := by
  cases h with
  | none world credits => exact walletsKept_congr (by rw [world]) credits hs
  | created key t absent pending husers orders credits => exact walletsKept_congr husers credits hs
  | closed key t t' order pending status husers orders credits =>
    exact walletsKept_congr husers credits hs
  | credited key t t' quota f order pending success quota_eq user husers orders credits =>
    intro userId
    have hbef := hs userId
    rw [husers, creditedTo_append credits]
    by_cases huser : userId = t.userId
    · subst huser
      obtain ⟨u, hu⟩ := user
      rw [hu] at hbef
      obtain ⟨u₀, hu₀, hqt⟩ := Option.map_eq_some_iff.mp hbef.symm
      rw [Table.modify_self, hu, hu₀]
      simp only [Option.map_some, quota_eq, if_true, Option.some.injEq]
      rw [← hqt]
      ring
    · rw [Table.modify_of_ne _ _ huser, hbef, if_neg (Ne.symm huser)]
      simp

end Runs

namespace TopUpCall
variable (quotaPerUnit : ℚ) {s : TopUpState} {tradeNo : String}

variable (call : TopUpCall)

/-- One call credits an order at most once. -/
theorem step_creditedOnce (hs : s.CreditedOnce tradeNo) :
    (call.step quotaPerUnit s).CreditedOnce tradeNo := by
  rcases call.step_order quotaPerUnit s tradeNo with ⟨h, -⟩ | ⟨h, -⟩
  · exact h.creditedOnce hs
  · exact h.creditedOnce hs

/-- An order does not become pending again. -/
theorem step_leftPending (hs : s.leftPending tradeNo = true) :
    (call.step quotaPerUnit s).leftPending tradeNo = true := by
  rcases call.step_order quotaPerUnit s tradeNo with ⟨h, -⟩ | ⟨h, -⟩
  · exact h.leftPending hs
  · exact h.left

/-- Only a step that overwrites the order makes its status untrue. -/
theorem step_statusTrue_iff (hs : s.StatusTrue tradeNo) :
    (call.step quotaPerUnit s).StatusTrue tradeNo ↔ call.overwrites tradeNo s = false := by
  rcases call.step_order quotaPerUnit s tradeNo with ⟨h, hcall⟩ | ⟨h, hcall⟩
  · simp [hcall, h.statusTrue hs]
  · simp [hcall, h.not_statusTrue hs]

/-- The wallets hold what was credited. -/
theorem step_walletsKept {users : Table ℤ TopUpUser} (hs : s.WalletsKept users) :
    (call.step quotaPerUnit s).WalletsKept users := by
  cases call with
  | create env key order => exact (s.create_effect env key order).walletsKept hs
  | complete call env key => cases call <;> exact (s.complete_effect _ env _ _ key).walletsKept hs
  | expire provider env key =>
    exact (s.setStatus_effect (.inr rfl) provider env key).walletsKept hs
  | fail provider env key =>
    exact (s.setStatus_effect (.inl rfl) provider env key).walletsKept hs
  | loadFailed key => exact (s.loadFailed_effect key).walletsKept hs
  | saveFailed env copy =>
    rcases s.saveFailed_cases env copy with ⟨h, -⟩ | ⟨key, t, -, -, h⟩
    · exact walletsKept_congr (by rw [step, h]) (by rw [step, h]) hs
    · exact walletsKept_congr (by rw [step, h]) (by rw [step, h]) hs

end TopUpCall

/-- For an order that is not created yet or pending: it is credited at most once, never
returns to pending, and every wallet holds what was credited to it. Its status tells in every
state whether it was credited, exactly if no handler saves its copy of the order as failed
after the order has succeeded. -/
theorem top_up_credited_once (quotaPerUnit : ℚ) (users : Table ℤ TopUpUser)
    (orders : Table String TopUp) (copies : List (String × TopUp)) (tradeNo : String)
    (hopen : ∀ t, orders tradeNo = some t → t.status = .pending) (calls : List TopUpCall) :
    let s : TopUpState := ⟨⟨users, orders⟩, copies, []⟩
    let after := fun done => run (step quotaPerUnit) done s
    ((after calls).creditsFor tradeNo).length ≤ 1 ∧
      (∀ done rest, calls = done ++ rest → (after done).leftPending tradeNo = true →
        (after calls).leftPending tradeNo = true) ∧
      (after calls).WalletsKept users ∧
      ((∀ done, done <+: calls → (after done).StatusTrue tradeNo) ↔ Along (step quotaPerUnit)
          (fun call s => call.overwrites tradeNo s = false) calls s) := by
  intro s after
  have honce : s.CreditedOnce tradeNo := ⟨fun _ => rfl, Nat.zero_le 1⟩
  have hnew : s.succeeded tradeNo = false := by
    cases hord : orders tradeNo with
    | none => simp [s, succeeded, hord]
    | some t => simp [s, succeeded, hord, hopen t hord]
  have htrue : s.StatusTrue tradeNo := by
    rw [TopUpState.StatusTrue, hnew]
    simp [s, creditsFor]
  have hwall : s.WalletsKept users := by
    intro userId
    simp [s, creditedTo]
  refine ⟨?_, ?_, ?_, ?_⟩
  · exact (run_invariant_always (I := fun s : TopUpState => s.CreditedOnce tradeNo)
      (fun call _ => call.step_creditedOnce quotaPerUnit) calls honce).once
  · rintro done rest rfl hleft
    have hrun := run_invariant_always (I := fun s : TopUpState => s.leftPending tradeNo = true)
      (fun call _ => call.step_leftPending quotaPerUnit) rest hleft
    rw [← run_append] at hrun
    exact hrun
  · exact run_invariant_always (I := fun s : TopUpState => s.WalletsKept users)
      (fun call _ => call.step_walletsKept quotaPerUnit) calls hwall
  · exact invariant_iff_along (I := fun s : TopUpState => s.StatusTrue tradeNo)
      (fun call _ => call.step_statusTrue_iff quotaPerUnit) calls htrue

def emptyWallet : Table ℤ TopUpUser := Table.empty.put 1 ⟨0, "", ""⟩

def waffoOrder : TopUp := ⟨1, 3, 3, "waffo", .waffo, 10, 0, .pending⟩

theorem top_up_credited_once_sample :
    let s : TopUpState := ⟨⟨emptyWallet, Table.empty⟩, [], []⟩
    let calls : List TopUpCall := [.create (.calm 10) "WAFFO-1" waffoOrder,
      .complete .waffo (.calm 20) "WAFFO-1", .complete .manual (.calm 21) "WAFFO-1",
      .fail (some .waffo) (.calm 22) "WAFFO-1"]
    (run (step 500000) calls s).world.users 1 = some ⟨1500000, "", ""⟩ ∧ ∀ done, done <+: calls →
        (run (step 500000) done s).StatusTrue "WAFFO-1" := by
  intro s calls
  have h := top_up_credited_once 500000 emptyWallet Table.empty [] "WAFFO-1"
    (fun t ht => by cases ht) calls
  exact ⟨by decide +kernel, h.2.2.2.mpr (by decide +kernel)⟩

/-- An administrator completes an order while its creator still waits for the gateway. The
gateway then refuses, and the creator's copy hides that the order was credited. -/
theorem refused_order_hides_credit :
    let s : TopUpState := ⟨⟨emptyWallet, Table.empty⟩, [], []⟩
    let s' := run (step 500000) [.create (.calm 10) "WAFFO-1" waffoOrder,
      .complete .manual (.calm 20) "WAFFO-1", .saveFailed (.calm 30) 0] s
    s'.creditsFor "WAFFO-1" = [⟨"WAFFO-1", 1, 1500000⟩] ∧
      (s'.world.orders "WAFFO-1").map TopUp.status = some .failed ∧ ¬ s'.StatusTrue "WAFFO-1" := by
  decide +kernel

end NewApi
