import NewApi.GroupUpgrades
import NewApi.TopUps

/-!
# The purchase limit of a plan

A paid order and an administrator's binding create a subscription in a transaction of several
statements. The count of the user's subscriptions and the insert are two of them, and in between
other transactions may run. A transaction waits for another one only at a row which that one has
locked: the order that both complete, or the user whose group both write. What a transaction
writes is visible to the others when it commits.
-/
namespace NewApi.Purchase

structure SubscriptionOrder where
  tradeNo : String
  (userId planId : ℤ)
  money : ℚ
  paymentMethod : String
  paymentProvider : Option PaymentProvider
  status : TopUpStatus
  (createTime completeTime : ℤ)
  providerPayload : String
  deriving DecidableEq

/-- The row of `top_ups` that shows a purchase in the user's history. -/
structure HistoryRow where
  userId : ℤ
  money : ℚ
  paymentMethod : String
  (createTime completeTime : ℤ)
  status : TopUpStatus

/-- The committed rows. -/
structure Store where
  orders : Table String SubscriptionOrder
  topUps : Table String HistoryRow
  groups : Table ℤ String
  subscriptions : List GroupSubscription
  nextId : ℤ

/-- How many subscriptions of a plan a user has. -/
def Store.held (s : Store) (userId planId : ℤ) : ℕ :=
  s.subscriptions.countP fun r => decide (r.userId = userId) && decide (r.planId = planId)

/-- What a transaction has written and not yet committed. -/
structure Writes where
  group : Option (ℤ × String)
  subscription : Option GroupSubscription
  topUp : Option (String × HistoryRow)
  order : Option SubscriptionOrder

/-- A transaction that has written nothing. -/
def Writes.none : Writes := ⟨.none, .none, .none, .none⟩

/-- The commit of a transaction. -/
def Writes.apply (w : Writes) (s : Store) : Store where
  orders := match w.order with
    | some o => s.orders.put o.tradeNo o
    | .none => s.orders
  topUps := match w.topUp with
    | some (tradeNo, row) => s.topUps.put tradeNo row
    | .none => s.topUps
  groups := match w.group with
    | some (userId, group) => s.groups.modify userId fun _ => group
    | .none => s.groups
  subscriptions := s.subscriptions ++ w.subscription.toList
  nextId := s.nextId

/-- Who gets which plan, and the order for which they do. -/
structure Buyer where
  userId : ℤ
  plan : SubscriptionPlan
  order : Option SubscriptionOrder
  deriving DecidableEq

/-- The next statement of a transaction, with what it has read. -/
inductive Stage where
  | lock
  | count (b : Buyer)
  | readGroup (b : Buyer) (endTime : ℤ)
  | updateGroup (b : Buyer) (endTime : ℤ) (currentGroup : String)
  | insert (b : Buyer) (endTime : ℤ) (prevGroup : String)
  | topUp (o : SubscriptionOrder)
  | saveOrder (o : SubscriptionOrder)
  | commit
  | finished (result : Option Err)
  deriving DecidableEq

/-- The arguments of `CompleteSubscriptionOrder`; an administrator's binding has none. -/
structure Completing where
  (tradeNo providerPayload : String)
  expectedPaymentProvider : Option PaymentProvider
  actualPaymentMethod : String

/-- A transaction, with its own writes. -/
structure Transaction where
  completing : Option Completing
  writes : Writes
  stage : Stage

open Transaction

/-- The committed rows and all transactions. -/
structure State where
  store : Store
  transactions : List Transaction

/-- The transaction has not ended. -/
def Stage.isOpen : Stage → Bool
  | .finished _ => false
  | _ => true

/-- It holds the lock of the order's row. -/
def Transaction.locksOrder (t : Transaction) (tradeNo : String) : Bool :=
  t.stage.isOpen && decide (t.stage ≠ .lock) && t.completing.any fun c => decide (c.tradeNo = tradeNo)

/-- It holds the lock of the user's row, which only a write takes. -/
def Transaction.locksUser (t : Transaction) (userId : ℤ) : Bool :=
  t.stage.isOpen && t.writes.group.any fun g => decide (g.1 = userId)

/-- Requests begin, and transactions execute their next statement. -/
inductive Call where
  | completeSubscriptionOrder (c : Completing)
  | adminBindSubscription (userId planId : ℤ)
  | statement (transaction : ℕ) (now : ℤ) (fails : Bool)

def getSubscriptionPlanById (plans : List SubscriptionPlan) (id : ℤ) : Except Err SubscriptionPlan :=
  if id ≤ 0 then .error (.text "invalid plan id")
  else match plans.find? fun p => decide (p.id = id) with
    | some plan => .ok plan
    | none => .error .recordNotFound

/-- The checks on an order that was read under its lock. -/
def afterLock (plans : List SubscriptionPlan) (store : Store) (c : Completing) : Stage :=
  match store.orders c.tradeNo with
  | none => .finished (some (.text "subscription order not found"))
  | some order =>
    if c.expectedPaymentProvider.isSome ∧ order.paymentProvider ≠ c.expectedPaymentProvider then
      .finished (some paymentMethodMismatch)
    else match order.status with
      | .success => .commit
      | .failed | .expired => .finished (some (.text "subscription order status invalid"))
      | .pending =>
        match getSubscriptionPlanById plans order.planId with
        | .error e => .finished (some e)
        | .ok plan => .count ⟨order.userId, plan, some order⟩

/-- The checks of `CreateUserSubscriptionFromPlanTx` up to the user's group. -/
def afterCount (addDate : ℤ → ℤ → ℤ → ℤ) (store : Store) (now : ℤ) (b : Buyer) : Stage :=
  if b.plan.id = 0 then .finished (some (.text "invalid plan"))
  else if b.userId ≤ 0 then .finished (some (.text "invalid user id"))
  else if 0 < b.plan.maxPurchasePerUser ∧
      b.plan.maxPurchasePerUser ≤ store.held b.userId b.plan.id then
    .finished (some (.text "已达到该套餐购买上限"))
  else match calcPlanEndTime addDate now b.plan with
    | .error e => .finished (some e)
    | .ok endTime =>
      if trimSpace b.plan.upgradeGroup = "" then .insert b endTime "" else .readGroup b endTime

/-- The group is only written if it changes. -/
def afterGroup (store : Store) (b : Buyer) (endTime : ℤ) : Stage :=
  let currentGroup := (store.groups b.userId).getD ""
  if currentGroup = trimSpace b.plan.upgradeGroup then .insert b endTime ""
  else .updateGroup b endTime currentGroup

def newSubscription (id : ℤ) (b : Buyer) (endTime : ℤ) (prevGroup : String) :
    GroupSubscription where
  id := id
  userId := b.userId
  planId := b.plan.id
  endTime := endTime
  status := .active
  upgradeGroup := trimSpace b.plan.upgradeGroup
  prevUserGroup := prevGroup

/-- The row of the purchase history, created or brought up to date. -/
def upsertSubscriptionTopUpTx (store : Store) (now : ℤ) (order : SubscriptionOrder) :
    Except Err HistoryRow :=
  match store.topUps order.tradeNo with
  | none => .ok
      { userId := order.userId
        money := order.money
        paymentMethod := order.paymentMethod
        createTime := order.createTime
        completeTime := now
        status := .success }
  | some row =>
    if row.paymentMethod ≠ "" ∧ row.paymentMethod ≠ order.paymentMethod then
      .error paymentMethodMismatch
    else .ok
      { row with
        money := order.money
        paymentMethod := order.paymentMethod
        createTime := if row.createTime = 0 then order.createTime else row.createTime
        completeTime := now
        status := .success }

/-- The order after its payment. -/
def Completing.saved (c : Completing) (now : ℤ) (order : SubscriptionOrder) : SubscriptionOrder :=
  { order with
    status := .success
    completeTime := now
    providerPayload := if c.providerPayload ≠ "" then c.providerPayload else order.providerPayload
    paymentMethod :=
      if c.actualPaymentMethod ≠ "" then c.actualPaymentMethod else order.paymentMethod }

def State.put (s : State) (n : ℕ) (t : Transaction) : State :=
  { s with transactions := s.transactions.set n t }

/-- The next statement of transaction `n`. It waits, and nothing happens, if another transaction
has locked the row. -/
def State.statement (plans : List SubscriptionPlan) (addDate : ℤ → ℤ → ℤ → ℤ) (s : State) (n : ℕ)
    (t : Transaction) (now : ℤ) : State :=
  match t.stage with
  | .lock =>
    match t.completing with
    | none => s
    | some c =>
      if s.transactions.any fun u => u.locksOrder c.tradeNo then s
      else s.put n { t with stage := afterLock plans s.store c }
  | .count b => s.put n { t with stage := afterCount addDate s.store now b }
  | .readGroup b endTime => s.put n { t with stage := afterGroup s.store b endTime }
  | .updateGroup b endTime currentGroup =>
    if s.transactions.any fun u => u.locksUser b.userId then s
    else s.put n { t with
      writes := { t.writes with group := some (b.userId, trimSpace b.plan.upgradeGroup) }
      stage := .insert b endTime currentGroup }
  | .insert b endTime prevGroup =>
    { s with store := { s.store with nextId := s.store.nextId + 1 } }.put n { t with
      writes := { t.writes with
        subscription := some (newSubscription s.store.nextId b endTime prevGroup) }
      stage := match b.order with
        | some order => .topUp order
        | none => .commit }
  | .topUp order =>
    match upsertSubscriptionTopUpTx s.store now order with
    | .error e => s.put n { t with stage := .finished (some e) }
    | .ok row => s.put n { t with
        writes := { t.writes with topUp := some (order.tradeNo, row) }
        stage := .saveOrder order }
  | .saveOrder order => s.put n { t with
      writes := { t.writes with order := t.completing.map fun c => c.saved now order }
      stage := .commit }
  | .commit =>
    { s with store := t.writes.apply s.store }.put n { t with stage := .finished none }
  | .finished _ => s

/-- A statement or commit that the database rejects rolls the transaction back. -/
def Transaction.rollback (t : Transaction) : Transaction :=
  if t.stage.isOpen then { t with stage := .finished (some .database) } else t

/-- A transaction that has to wait for a lock does not move. -/
def Call.step (plans : List SubscriptionPlan) (addDate : ℤ → ℤ → ℤ → ℤ) : Call → State → State
  | .completeSubscriptionOrder c, s =>
    if c.tradeNo = "" then s
    else { s with transactions := s.transactions ++ [⟨some c, .none, .lock⟩] }
  | .adminBindSubscription userId planId, s =>
    if userId ≤ 0 ∨ planId ≤ 0 then s
    else match getSubscriptionPlanById plans planId with
      | .error _ => s
      | .ok plan =>
        { s with transactions := s.transactions ++ [⟨none, .none, .count ⟨userId, plan, none⟩⟩] }
  | .statement n now fails, s =>
    match s.transactions[n]? with
    | none => s
    | some t => if fails then s.put n t.rollback else s.statement plans addDate n t now

/-- The user and the plan of the subscription that the transaction will add if it commits. -/
def Transaction.buys (t : Transaction) : Option (ℤ × ℤ) :=
  match t.stage with
  | .readGroup b _ | .updateGroup b _ _ | .insert b _ _ => some (b.userId, b.plan.id)
  | .topUp _ | .saveOrder _ | .commit => t.writes.subscription.map fun r => (r.userId, r.planId)
  | .lock | .count _ | .finished _ => none

/-- How many open transactions will add a subscription of the plan. -/
def State.pending (s : State) (userId planId : ℤ) : ℕ :=
  s.transactions.countP fun t => decide (t.buys = some (userId, planId))

/-- The buyer for whom the next statement counts the subscriptions. -/
def Stage.counting : Stage → Option Buyer
  | .count b => some b
  | _ => none

/-- If there is room for the buyer, there is also room beside the open transactions. -/
def State.RoomFor (s : State) (b : Buyer) : Prop :=
  0 < b.plan.maxPurchasePerUser → s.store.held b.userId b.plan.id < b.plan.maxPurchasePerUser →
    s.store.held b.userId b.plan.id + s.pending b.userId b.plan.id < b.plan.maxPurchasePerUser

instance (s : State) (b : Buyer) : Decidable (s.RoomFor b) :=
  inferInstanceAs (Decidable (_ → _ → _))

/-- A transaction that passes the check leaves room for those that have passed it before and are
still open. -/
def Call.LeavesRoom : Call → State → Prop
  | .statement n _ _, s => ∀ t ∈ s.transactions[n]?, ∀ b ∈ t.stage.counting, s.RoomFor b
  | _, _ => True

instance (c : Call) (s) : Decidable (c.LeavesRoom s) := by
  cases c <;> dsimp only [Call.LeavesRoom] <;> infer_instance

/-- No user holds more subscriptions of a plan than before or than its limit. -/
def Within (plans : List SubscriptionPlan) (start s : Store) : Prop :=
  ∀ userId planId plan, getSubscriptionPlanById plans planId = .ok plan →
    0 < plan.maxPurchasePerUser →
    (s.held userId planId : ℤ) ≤ max (start.held userId planId : ℤ) plan.maxPurchasePerUser

/-- What a statement of a transaction does to the subscriptions: it may drop the one it was to
add, pass the check for one, or commit one. -/
inductive Effect (store : Store) (t : Transaction) : Store → Transaction → Prop
  | keeps {store' : Store} {t' : Transaction} (hrows : store'.subscriptions = store.subscriptions)
      (hbuys : t'.buys = t.buys ∨ t'.buys = none) : Effect store t store' t'
  | passes {store' : Store} {t' : Transaction} (b : Buyer)
      (hrows : store'.subscriptions = store.subscriptions) (hstage : t.stage = .count b)
      (hroom : 0 < b.plan.maxPurchasePerUser →
        store.held b.userId b.plan.id < b.plan.maxPurchasePerUser)
      (hbuys : t'.buys = some (b.userId, b.plan.id)) : Effect store t store' t'
  | commits {store' : Store} {t' : Transaction} (r : GroupSubscription)
      (hrows : store'.subscriptions = store.subscriptions ++ [r])
      (hold : t.buys = some (r.userId, r.planId)) (hbuys : t'.buys = none) :
      Effect store t store' t'

/-- The statements up to the check. -/
def Stage.isEarly : Stage → Bool
  | .lock | .count _ => true
  | _ => false

/-- A transaction before its check has not written anything, and its plan is a listed one. -/
def Transaction.Fresh (plans : List SubscriptionPlan) (t : Transaction) : Prop :=
  (t.stage = .lock → t.writes = .none) ∧
    ∀ b, t.stage = .count b → getSubscriptionPlanById plans b.plan.id = .ok b.plan

/-- Transaction `n` becomes `t'`, with the effect of one of its statements. -/
def Moves (plans : List SubscriptionPlan) (s : State) (n : ℕ) (t : Transaction) (s' : State) :
    Prop :=
  ∃ t', s'.transactions = s.transactions.set n t' ∧ Effect s.store t s'.store t' ∧ t'.Fresh plans

section
variable {plans : List SubscriptionPlan} {addDate : ℤ → ℤ → ℤ → ℤ} {s : State} {n : ℕ}
  {t : Transaction} {now : ℤ} {b : Buyer}

theorem getSubscriptionPlanById_id {id : ℤ} {plan : SubscriptionPlan}
    (h : getSubscriptionPlanById plans id = .ok plan) : plan.id = id := by
  unfold getSubscriptionPlanById at h
  split at h
  · cases h
  split at h
  next hfind =>
    cases h
    simpa using List.find?_some hfind
  · cases h

theorem Transaction.Fresh.of_later (h : t.stage.isEarly = false) : t.Fresh plans := by
  refine ⟨fun hlock => ?_, fun b hct => ?_⟩
  · rw [hlock] at h
    cases h
  · rw [hct] at h
    cases h

theorem Moves.stays (ht : s.transactions[n]? = some t) (hfr : t.Fresh plans) :
    Moves plans s n t s := by
  obtain ⟨hlt, rfl⟩ := List.getElem?_eq_some_iff.mp ht
  exact ⟨_, (List.set_getElem_self hlt).symm, .keeps rfl (.inl rfl), hfr⟩

/-- After the order is locked the transaction ends, commits nothing, or counts for a listed
plan. -/
theorem afterLock_cases (plans : List SubscriptionPlan) (store : Store) (c : Completing) :
    (∃ result, afterLock plans store c = .finished result) ∨ afterLock plans store c = .commit ∨
      ∃ b, afterLock plans store c = .count b ∧
        getSubscriptionPlanById plans b.plan.id = .ok b.plan := by
  unfold afterLock
  split
  · exact .inl ⟨_, rfl⟩
  split
  · exact .inl ⟨_, rfl⟩
  split
  · exact .inr (.inl rfl)
  · exact .inl ⟨_, rfl⟩
  · exact .inl ⟨_, rfl⟩
  · split
    · exact .inl ⟨_, rfl⟩
    next plan hplan =>
      refine .inr (.inr ⟨_, rfl, ?_⟩)
      rw [getSubscriptionPlanById_id hplan]
      exact hplan

theorem moves_lock (hst : t.stage = .lock) (hfr : t.Fresh plans) (c : Completing) :
    Moves plans s n t (s.put n { t with stage := afterLock plans s.store c }) := by
  obtain ⟨result, h⟩ | h | ⟨b, h, hplan⟩ := afterLock_cases plans s.store c
  all_goals rw [h]
  · exact ⟨_, rfl, .keeps rfl (.inr rfl), .of_later rfl⟩
  · -- an order that has succeeded is committed without writes
    refine ⟨_, rfl, .keeps rfl (.inr ?_), .of_later rfl⟩
    rw [buys, hfr.1 hst]
    rfl
  · refine ⟨_, rfl, .keeps rfl (.inr rfl), fun hlock => Stage.noConfusion hlock, fun b' hb' => ?_⟩
    rwa [← Stage.count.inj hb']

/-- Either the transaction ends, or the limit leaves room. -/
theorem afterCount_cases (addDate : ℤ → ℤ → ℤ → ℤ) (store : Store) (now : ℤ) (b : Buyer) :
    (∃ result, afterCount addDate store now b = .finished result) ∨ (0 < b.plan.maxPurchasePerUser →
        (store.held b.userId b.plan.id : ℤ) < b.plan.maxPurchasePerUser) ∧
      ∃ endTime, afterCount addDate store now b = .insert b endTime "" ∨
        afterCount addDate store now b = .readGroup b endTime := by
  unfold afterCount
  split
  · exact .inl ⟨_, rfl⟩
  split
  · exact .inl ⟨_, rfl⟩
  split
  · exact .inl ⟨_, rfl⟩
  next hlimit =>
    split
    · exact .inl ⟨_, rfl⟩
    next endTime _ =>
      refine .inr ⟨fun hpos => lt_of_not_ge fun h => hlimit ⟨hpos, h⟩, endTime, ?_⟩
      split
      · exact .inl rfl
      · exact .inr rfl

theorem moves_count (hst : t.stage = .count b) :
    Moves plans s n t (s.put n { t with stage := afterCount addDate s.store now b }) := by
  obtain ⟨result, h⟩ | ⟨hroom, endTime, h⟩ := afterCount_cases addDate s.store now b
  · rw [h]
    exact ⟨_, rfl, .keeps rfl (.inr rfl), .of_later rfl⟩
  · obtain h | h := h <;> rw [h]
    · exact ⟨_, rfl, .passes b rfl hst hroom rfl, .of_later rfl⟩
    · exact ⟨_, rfl, .passes b rfl hst hroom rfl, .of_later rfl⟩

theorem moves_readGroup {endTime : ℤ} (hst : t.stage = .readGroup b endTime) :
    Moves plans s n t (s.put n { t with stage := afterGroup s.store b endTime }) := by
  have hbuys : t.buys = some (b.userId, b.plan.id) := by rw [buys, hst]
  unfold afterGroup
  dsimp only
  split
  · exact ⟨_, rfl, .keeps rfl (.inl hbuys.symm), .of_later rfl⟩
  · exact ⟨_, rfl, .keeps rfl (.inl hbuys.symm), .of_later rfl⟩

theorem moves_commit (hst : t.stage = .commit) : Moves plans s n t
      ({ s with store := t.writes.apply s.store }.put n { t with stage := .finished none }) := by
  have hbuys : t.buys = t.writes.subscription.map fun r => (r.userId, r.planId) := by
    rw [buys, hst]
  refine ⟨_, rfl, ?_, .of_later rfl⟩
  cases hrow : t.writes.subscription with
  | none =>
    refine .keeps ?_ (.inr rfl)
    change s.store.subscriptions ++ t.writes.subscription.toList = _
    rw [hrow]
    exact List.append_nil _
  | some r =>
    refine .commits r ?_ (by rw [hbuys, hrow]; rfl) rfl
    change s.store.subscriptions ++ t.writes.subscription.toList = _
    rw [hrow]
    rfl

theorem statement_moves (ht : s.transactions[n]? = some t) (hfr : t.Fresh plans) :
    Moves plans s n t (s.statement plans addDate n t now) := by
  unfold State.statement
  split
  next hst =>
    split
    · exact .stays ht hfr
    · split
      · exact .stays ht hfr
      · exact moves_lock hst hfr _
  next hst => exact moves_count hst
  next hst => exact moves_readGroup hst
  next b _ _ hst =>
    have hbuys : t.buys = some (b.userId, b.plan.id) := by rw [buys, hst]
    split
    · exact .stays ht hfr
    · exact ⟨_, rfl, .keeps rfl (.inl hbuys.symm), .of_later rfl⟩
  next b _ _ hst =>
    have hbuys : t.buys = some (b.userId, b.plan.id) := by rw [buys, hst]
    refine ⟨_, rfl, .keeps rfl (.inl ?_), ?_⟩
    · rw [hbuys, buys]
      cases b.order <;> rfl
    · cases b.order <;> exact .of_later rfl
  next hst =>
    have hbuys : t.buys = t.writes.subscription.map fun r => (r.userId, r.planId) := by
      rw [buys, hst]
    split
    · exact ⟨_, rfl, .keeps rfl (.inr rfl), .of_later rfl⟩
    · exact ⟨_, rfl, .keeps rfl (.inl hbuys.symm), .of_later rfl⟩
  next hst =>
    have hbuys : t.buys = t.writes.subscription.map fun r => (r.userId, r.planId) := by
      rw [buys, hst]
    exact ⟨_, rfl, .keeps rfl (.inl hbuys.symm), .of_later rfl⟩
  next hst => exact moves_commit hst
  · exact .stays ht hfr

theorem rollback_moves (hfr : t.Fresh plans) : Moves plans s n t (s.put n t.rollback) := by
  unfold rollback
  split
  · exact ⟨_, rfl, .keeps rfl (.inr rfl), .of_later rfl⟩
  · exact ⟨_, rfl, .keeps rfl (.inl rfl), hfr⟩

/-- Replacing a transaction changes the count by what the two buy. -/
theorem pending_set {s' : State} {t' : Transaction} (ht : s.transactions[n]? = some t)
    (hset : s'.transactions = s.transactions.set n t') (userId planId : ℤ) :
    s'.pending userId planId + (if t.buys = some (userId, planId) then 1 else 0) =
      s.pending userId planId + (if t'.buys = some (userId, planId) then 1 else 0) := by
  rw [State.pending, State.pending, hset]
  simpa only [decide_eq_true_eq] using
    countP_set_add (fun t : Transaction => decide (t.buys = some (userId, planId))) ht

variable {store store' start : Store}

theorem held_eq (h : store'.subscriptions = store.subscriptions)
    (userId planId : ℤ) : store'.held userId planId = store.held userId planId := by
  rw [Store.held, Store.held, h]

theorem held_append {r : GroupSubscription}
    (h : store'.subscriptions = store.subscriptions ++ [r]) (userId planId : ℤ) :
    store'.held userId planId = store.held userId planId +
      (if some (r.userId, r.planId) = some (userId, planId) then 1 else 0) := by
  rw [Store.held, Store.held, h, List.countP_append, List.countP_singleton]
  simp

/-- Subscriptions and transactions that will add one stay within the limit together. -/
def Ready (plans : List SubscriptionPlan) (start : Store) (s : State) : Prop :=
  (∀ t ∈ s.transactions, t.Fresh plans) ∧
    ∀ userId planId plan, getSubscriptionPlanById plans planId = .ok plan →
      0 < plan.maxPurchasePerUser →
      (s.store.held userId planId + s.pending userId planId : ℤ) ≤
        max (start.held userId planId : ℤ) plan.maxPurchasePerUser

theorem Moves.ready {s' : State} {fails : Bool} (h : Moves plans s n t s')
    (ht : s.transactions[n]? = some t) (hs : Ready plans start s)
    (hok : (Call.statement n now fails).LeavesRoom s) : Ready plans start s' := by
  obtain ⟨t', hset, heffect, hfr⟩ := h
  refine ⟨fun w hw => ?_, fun userId planId plan hplan hpos => ?_⟩
  · rw [hset] at hw
    obtain hw | rfl := List.mem_or_eq_of_mem_set hw
    · exact hs.1 w hw
    · exact hfr
  · have hbd := hs.2 userId planId plan hplan hpos
    have hpend := pending_set ht hset userId planId
    cases heffect with
    | keeps hrows hbuys =>
      rw [held_eq hrows userId planId]
      obtain hbuys | hbuys := hbuys <;> rw [hbuys] at hpend
      · omega
      · rw [if_neg (by simp : ¬none = some (userId, planId))] at hpend
        omega
    | passes b hrows hst hroom hbuys =>
      rw [held_eq hrows userId planId]
      have hold : t.buys = none := by rw [buys, hst]
      rw [hold, hbuys, if_neg (by simp)] at hpend
      split_ifs at hpend with hsame
      · -- the check was for this plan, so there is room for one more
        obtain ⟨rfl, rfl⟩ := Prod.mk.inj (Option.some.inj hsame)
        have hlist := (hs.1 t (List.mem_of_getElem? ht)).2 b hst
        obtain rfl := Except.ok.inj (hlist.symm.trans hplan)
        have hcoun : b ∈ t.stage.counting := by rw [hst]; rfl
        have hleft := hok t ht b hcoun hpos (hroom hpos)
        refine le_max_of_le_right ?_
        omega
      · omega
    | commits r hrows hold hbuys =>
      rw [hold, hbuys, if_neg (by simp : ¬none = some (userId, planId))] at hpend
      rw [held_append hrows userId planId]
      omega

theorem Ready.opens (hs : Ready plans start s) (hfr : t.Fresh plans) (hbuys : t.buys = none) :
    Ready plans start { s with transactions := s.transactions ++ [t] } := by
  refine ⟨fun w hw => ?_, fun userId planId plan hplan hpos => ?_⟩
  · obtain hw | hw := List.mem_append.mp hw
    · exact hs.1 w hw
    · rwa [List.mem_singleton.mp hw]
  · have hbd := hs.2 userId planId plan hplan hpos
    have hpend : State.pending { s with transactions := s.transactions ++ [t] } userId planId =
        s.pending userId planId := by
      rw [State.pending, List.countP_append, List.countP_singleton, hbuys]
      rfl
    rw [hpend]
    exact hbd

theorem Ready.step (c : Call) (s : State) (hok : c.LeavesRoom s)
    (hs : Ready plans start s) : Ready plans start (c.step plans addDate s) := by
  cases c with
  | completeSubscriptionOrder c =>
    simp only [Call.step]
    split
    · exact hs
    · exact hs.opens ⟨fun _ => rfl, fun b hb => Stage.noConfusion hb⟩ rfl
  | adminBindSubscription userId planId =>
    simp only [Call.step]
    split
    · exact hs
    split
    · exact hs
    next plan hplan =>
      refine hs.opens ⟨fun hlock => Stage.noConfusion hlock, fun b hb => ?_⟩ rfl
      rw [← Stage.count.inj hb, getSubscriptionPlanById_id hplan]
      exact hplan
  | statement n now fails =>
    simp only [Call.step]
    split
    · exact hs
    next t ht =>
      have hfr := hs.1 t (List.mem_of_getElem? ht)
      split
      · exact (rollback_moves hfr).ready ht hs hok
      · exact (statement_moves ht hfr).ready ht hs hok

end

/-- If each transaction that passes the check leaves room for the open ones that have passed it
before, no user ever holds more subscriptions of a limited plan than the limit allows. -/
theorem purchase_limit_respected (plans : List SubscriptionPlan) (addDate : ℤ → ℤ → ℤ → ℤ)
    (start : Store) (calls : List Call)
    (h : Along (Call.step plans addDate) Call.LeavesRoom calls ⟨start, []⟩) :
    ∀ js, js <+: calls → Within plans start (run (Call.step plans addDate) js ⟨start, []⟩).store := by
  intro js hjs userId planId plan hplan hpos
  have hst : Ready plans start ⟨start, []⟩ := by
    refine ⟨fun _ ht => absurd ht List.not_mem_nil, fun userId planId plan _ _ => ?_⟩
    simp [State.pending]
  have hrdy := run_invariant_along (I := Ready plans start) Ready.step h hst js hjs
  have hbd := hrdy.2 userId planId plan hplan hpos
  omega

def samplePlan : SubscriptionPlan := ⟨7, .day, 30, 0, 1, ""⟩

def sampleOrder (tradeNo : String) : SubscriptionOrder :=
  ⟨tradeNo, 1, 7, 10, "alipay", some .epay, .pending, 100, 0, ""⟩

def sampleStore : Store where
  orders := (Table.empty.put "A" (sampleOrder "A")).put "B" (sampleOrder "B")
  topUps := Table.empty
  groups := Table.empty.put 1 "default"
  subscriptions := []
  nextId := 1

def sampleCompletion (tradeNo : String) : Call :=
  .completeSubscriptionOrder ⟨tradeNo, "", some .epay, "alipay"⟩

/-- The statements of a completion of the sample plan: the lock, the count, the insert, the
history, the order, and the commit. -/
def wholeCompletion (n : ℕ) : List Call := List.replicate 6 (.statement n 200 false)

def oneAfterTheOther : List Call :=
  [sampleCompletion "A", sampleCompletion "B"] ++ wholeCompletion 0 ++ wholeCompletion 1

def sampleStep : Call → State → State := Call.step [samplePlan] fun _ _ start => start

theorem purchase_limit_respected_sample :
    Along sampleStep Call.LeavesRoom oneAfterTheOther ⟨sampleStore, []⟩ ∧
      (run sampleStep oneAfterTheOther ⟨sampleStore, []⟩).store.held 1 7 = 1 ∧
      ∀ js, js <+: oneAfterTheOther →
        Within [samplePlan] sampleStore (run sampleStep js ⟨sampleStore, []⟩).store :=
  have hok : Along sampleStep Call.LeavesRoom oneAfterTheOther ⟨sampleStore, []⟩ := by
    decide +kernel
  ⟨hok, by decide +kernel,
    purchase_limit_respected [samplePlan] (fun _ _ start => start) sampleStore oneAfterTheOther hok⟩

def bothCountFirst : List Call :=
  [sampleCompletion "A", sampleCompletion "B", .statement 0 200 false, .statement 1 200 false,
    .statement 0 200 false, .statement 1 200 false] ++
    List.replicate 4 (.statement 0 200 false) ++ List.replicate 4 (.statement 1 200 false)

/-- Both transactions count before either inserts. -/
theorem plan_bought_twice : samplePlan.maxPurchasePerUser = 1 ∧ sampleStore.held 1 7 = 0 ∧
      (run sampleStep bothCountFirst ⟨sampleStore, []⟩).store.held 1 7 = 2 := by
  decide +kernel

end NewApi.Purchase
