import Mathlib.Data.List.DropRight
import NewApi.Runs
import NewApi.TaskBilling

/-!
# Group upgrades of subscriptions

A plan may move its buyer to another group. The subscription remembers the group from which
it did, and whoever ends the subscription moves the user back: the periodic expiry, or an
administrator who invalidates or deletes it. All of these are single transactions, and the
clock does not run backwards from one to the next. Only the columns that decide about the
group are modelled.
-/
namespace NewApi

inductive SubscriptionStatus where
  | active | expired | cancelled
  deriving DecidableEq

/-- A row of `user_subscriptions`, as far as the user's group depends on it. -/
structure GroupSubscription where
  (id userId planId endTime : ℤ)
  status : SubscriptionStatus
  (upgradeGroup prevUserGroup : String)
  deriving DecidableEq

inductive DurationUnit where
  | year | month | day | hour | custom
  | other (text : String)
  deriving DecidableEq

/-- A plan, as far as groups and purchases read it. -/
structure SubscriptionPlan where
  id : ℤ
  durationUnit : DurationUnit
  (durationValue customSeconds maxPurchasePerUser : ℤ)
  upgradeGroup : String
  deriving DecidableEq

/-- The users' groups, the subscriptions, and the clock of the database. -/
structure GroupWorld where
  groups : Table ℤ String
  rows : List GroupSubscription
  (nextId clock : ℤ)

/-- Transactions on groups and subscriptions. -/
abbrev GroupTx (α : Type) := Tx GroupWorld Err α

/-- The time after a duration, which is a 64-bit number of nanoseconds. -/
def addSeconds (start seconds : ℤ) : ℤ := start + wrapInt64 (seconds * 1000000000) / 1000000000

/-- `addDate years months start` is the calendar of the server's time zone. -/
def calcPlanEndTime (addDate : ℤ → ℤ → ℤ → ℤ) (start : ℤ) (plan : SubscriptionPlan) :
    Except Err ℤ :=
  if plan.durationValue ≤ 0 ∧ plan.durationUnit ≠ .custom then
    .error (.text "duration_value must be > 0")
  else match plan.durationUnit with
    | .year => .ok (addDate plan.durationValue 0 start)
    | .month => .ok (addDate 0 plan.durationValue start)
    | .day => .ok (addSeconds start (plan.durationValue * 24 * 3600))
    | .hour => .ok (addSeconds start (plan.durationValue * 3600))
    | .custom =>
      if plan.customSeconds ≤ 0 then .error (.text "custom_seconds must be > 0")
      else .ok (addSeconds start plan.customSeconds)
    | .other unit => .error (.text ("invalid duration_unit: " ++ unit))

/-- A user that does not exist has the empty group. -/
def getUserGroupByIdTx (env : Env) (userId : ℤ) : GroupTx String :=
  if userId ≤ 0 then Tx.abort (.text "invalid userId")
  else do
    Tx.statement (env.fault 0) .database
    let w ← Tx.read
    return (w.groups userId).getD ""

/-- A user who is not there stays so. -/
def GroupWorld.setGroup (userId : ℤ) (group : String) (w : GroupWorld) : GroupWorld :=
  { w with groups := w.groups.modify userId fun _ => group }

/-- The statement that writes a group. -/
def updateUserGroup (env : Env) (userId : ℤ) (group : String) : GroupTx Unit := do
  Tx.statement (env.fault 1) .database
  Tx.modify (GroupWorld.setGroup userId group)

/-- The subscription gives its user a group now. -/
def GroupSubscription.activeUpgrade (userId now : ℤ) (r : GroupSubscription) : Bool :=
  decide (r.userId = userId) && decide (r.status = .active) && decide (now < r.endTime) &&
    decide (r.upgradeGroup ≠ "")

/-- The group to which the user was moved back, or the empty text. -/
def downgradeUserGroupForSubscriptionTx (env : Env) (sub : GroupSubscription) : GroupTx String :=
  let upgradeGroup := trimSpace sub.upgradeGroup
  if upgradeGroup = "" then return ""
  else do
    let currentGroup ← getUserGroupByIdTx env sub.userId
    if currentGroup ≠ upgradeGroup then return ""
    else do
      let w ← Tx.read
      -- a query that fails counts as one that found nothing
      if env.fault 2 = false ∧ w.rows.any (fun r =>
          r.activeUpgrade sub.userId env.now && decide (r.id ≠ sub.id)) = true then return ""
      else
        let prevGroup := trimSpace sub.prevUserGroup
        if prevGroup = "" ∨ prevGroup = currentGroup then return ""
        else do
          updateUserGroup env sub.userId prevGroup
          return prevGroup

/-- Move the buyer to the plan's group; the group from which that happened, if any. -/
def upgradeUserGroupTx (env : Env) (userId : ℤ) (upgradeGroup : String) : GroupTx String :=
  if upgradeGroup = "" then return ""
  else do
    let currentGroup ← getUserGroupByIdTx env userId
    if currentGroup = upgradeGroup then return ""
    else do
      updateUserGroup env userId upgradeGroup
      return currentGroup

/-- A purchase: the limit is checked, the group is changed and the row is written. -/
def createUserSubscriptionFromPlanTx (addDate : ℤ → ℤ → ℤ → ℤ) (env : Env) (userId : ℤ)
    (plan : SubscriptionPlan) : GroupTx Unit := do
  if plan.id = 0 then Tx.abort (.text "invalid plan")
  else if userId ≤ 0 then Tx.abort (.text "invalid user id")
  else do
    let w ← Tx.read
    Tx.statement (decide (0 < plan.maxPurchasePerUser) && env.fault 3) .database
    if 0 < plan.maxPurchasePerUser ∧ plan.maxPurchasePerUser ≤
        w.rows.countP fun r => decide (r.userId = userId) && decide (r.planId = plan.id) then
      Tx.abort (.text "已达到该套餐购买上限")
    else match calcPlanEndTime addDate env.now plan with
      | .error e => Tx.abort e
      | .ok endTime => do
        let upgradeGroup := trimSpace plan.upgradeGroup
        let prevGroup ← upgradeUserGroupTx env userId upgradeGroup
        Tx.statement (env.fault 4) .database
        Tx.modify fun w => { w with
          rows := w.rows ++ [{
            id := w.nextId
            userId := userId
            planId := plan.id
            endTime := endTime
            status := .active
            upgradeGroup := upgradeGroup
            prevUserGroup := prevGroup }]
          nextId := w.nextId + 1 }

/-- The row after a cancellation. -/
def GroupSubscription.cancel (now : ℤ) (r : GroupSubscription) : GroupSubscription :=
  { r with status := .cancelled, endTime := now }

/-- What the administrator is told. -/
def rollbackMessage (group : String) : String :=
  if group = "" then "" else "用户分组将回退到 " ++ group

def findSubscription (env : Env) (id : ℤ) : GroupTx GroupSubscription :=
  if id ≤ 0 then Tx.abort (.text "invalid userSubscriptionId")
  else do
    Tx.statement (env.fault 3) .database
    let w ← Tx.read
    match w.rows.find? fun r => decide (r.id = id) with
    | none => Tx.abort .recordNotFound
    | some sub => return sub

/-- Cancels a subscription, then restores the group. -/
def adminInvalidateUserSubscription (env : Env) (id : ℤ) : GroupTx String := do
  let sub ← findSubscription env id
  Tx.statement (env.fault 4) .database
  Tx.modify fun w => { w with
    rows := w.rows.map fun r => if r.id = id then r.cancel env.now else r }
  let target ← downgradeUserGroupForSubscriptionTx env sub
  return rollbackMessage target

/-- Restores the group while the row is still there, then deletes it. -/
def adminDeleteUserSubscription (env : Env) (id : ℤ) : GroupTx String := do
  let sub ← findSubscription env id
  let target ← downgradeUserGroupForSubscriptionTx env sub
  Tx.statement (env.fault 4) .database
  Tx.modify fun w => { w with rows := w.rows.filter fun r => decide (r.id ≠ id) }
  return rollbackMessage target

/-- The subscription is to expire. -/
def GroupSubscription.dueAt (userId now : ℤ) (r : GroupSubscription) : Bool :=
  decide (r.userId = userId) && decide (r.status = .active) && decide (0 < r.endTime) &&
    decide (r.endTime ≤ now)

/-- The first row in the order `end_time desc, id desc`. -/
def latest : List GroupSubscription → Option GroupSubscription
  | [] => none
  | r :: rows =>
    match latest rows with
    | none => some r
    | some m =>
      if m.endTime < r.endTime ∨ (m.endTime = r.endTime ∧ m.id < r.id) then some r else some m

/-- The group to restore is found in the last one that expired. -/
def lastExpired (userId : ℤ) (rows : List GroupSubscription) : Option GroupSubscription :=
  latest (rows.filter fun r => decide (r.userId = userId) && decide (r.status = .expired) &&
    decide (r.upgradeGroup ≠ ""))

/-- The transaction of `ExpireDueSubscriptions` for one of the users that it found. Both
queries after the update may fail without an error. -/
def expireDueSubscriptions (env : Env) (userId : ℤ) : GroupTx Unit := do
  Tx.statement (env.fault 3) .database
  Tx.modify fun w => { w with
    rows := w.rows.map fun r =>
      if r.dueAt userId env.now then { r with status := .expired } else r }
  let w ← Tx.read
  if env.fault 4 = false ∧ w.rows.any (fun r => r.activeUpgrade userId env.now) = true then
    pure ()
  else match if env.fault 5 then none else lastExpired userId w.rows with
    | none => pure ()
    | some last =>
      let upgradeGroup := trimSpace last.upgradeGroup
      let prevGroup := trimSpace last.prevUserGroup
      if upgradeGroup = "" ∨ prevGroup = "" then pure ()
      else do
        let currentGroup ← getUserGroupByIdTx env userId
        if currentGroup ≠ upgradeGroup ∨ currentGroup = prevGroup then pure ()
        else updateUserGroup env userId prevGroup

/-- The four operations on subscriptions. -/
inductive GroupOp where
  | purchase (userId : ℤ) (plan : SubscriptionPlan)
  | expire (userId : ℤ)
  | invalidate (id : ℤ)
  | delete (id : ℤ)

/-- An operation some time after the one before it, with the statements that fail in it. -/
structure GroupCall where
  wait : ℕ
  fault : ℕ → Bool
  op : GroupOp

section Runs
variable (addDate : ℤ → ℤ → ℤ → ℤ)

/-- The body of an operation's transaction. -/
def GroupOp.body (env : Env) : GroupOp → GroupTx Unit
  | purchase userId plan => createUserSubscriptionFromPlanTx addDate env userId plan
  | expire userId => expireDueSubscriptions env userId
  | invalidate id => do let _ ← adminInvalidateUserSubscription env id
  | delete id => do let _ ← adminDeleteUserSubscription env id

/-- Time does not run backwards. -/
def GroupCall.now (c : GroupCall) (w : GroupWorld) : ℤ := w.clock + c.wait

/-- A call is one transaction. -/
def GroupCall.step (c : GroupCall) (w : GroupWorld) : GroupWorld :=
  let env : Env := ⟨c.now w, c.fault⟩
  (commit (c.fault commitSite) .database (c.op.body addDate env) { w with clock := env.now }).2

/-- Some subscription that upgrades the user's group has not been ended yet. -/
def GroupWorld.upgraded (userId : ℤ) (w : GroupWorld) : Bool :=
  w.rows.any fun r => decide (r.userId = userId) && decide (r.upgradeGroup ≠ "") &&
    decide (r.status = .active)

/-- A purchase does not end at once. -/
def SubscriptionPlan.endsAfter (now : ℤ) (plan : SubscriptionPlan) : Bool :=
  match calcPlanEndTime addDate now plan with
  | .ok endTime => decide (now < endTime)
  | .error _ => true

/-- The user buys one upgrade at a time, of a plan that ends later, from a group with a
proper name; and the expiry can read the subscriptions that it has ended. -/
def UpgradesAlone (userId : ℤ) (c : GroupCall) (w : GroupWorld) : Prop :=
  match c.op with
  | .purchase buyer plan => buyer = userId → trimSpace plan.upgradeGroup ≠ "" →
      w.upgraded userId = false ∧ plan.endsAfter addDate (c.now w) = true ∧
      (w.groups userId).all (fun g => decide (g ≠ "") && decide (trimSpace g = g)) = true
  | .expire owner => owner = userId → c.fault 5 = false
  | .invalidate _ | .delete _ => True

instance (userId : ℤ) : ∀ c w, Decidable (UpgradesAlone addDate userId c w)
  | ⟨_, _, op⟩, _ => by cases op <;> dsimp only [UpgradesAlone] <;> infer_instance

end Runs

/-- What is left starts with no space, because it starts as before the end was cut off. -/
theorem dropWhile_rdropWhile (l : List Char) :
    ((l.dropWhile isSpace).rdropWhile isSpace).dropWhile isSpace =
      (l.dropWhile isSpace).rdropWhile isSpace := by
  have hpre := List.rdropWhile_prefix isSpace (l.dropWhile isSpace)
  have hstab := List.dropWhile_idempotent isSpace l
  generalize l.dropWhile isSpace = m at hpre hstab ⊢
  cases hn : m.rdropWhile isSpace with
  | nil => rfl
  | cons x n =>
    rw [hn] at hpre
    obtain ⟨rest, rfl⟩ := hpre
    have hx : ¬ isSpace x = true := by
      intro hspace
      have hlen := congrArg List.length hstab
      rw [List.cons_append, List.dropWhile_cons_of_pos hspace, List.length_cons] at hlen
      have hle := (List.dropWhile_sublist isSpace (l := n ++ rest)).length_le
      omega
    exact List.dropWhile_cons_of_neg hx

theorem trimSpace_trimSpace (s : String) : trimSpace (trimSpace s) = trimSpace s := by
  have hright : ∀ l : List Char, (l.reverse.dropWhile isSpace).reverse = l.rdropWhile isSpace :=
    fun _ => rfl
  simp only [trimSpace, hright, String.toList_ofList]
  rw [dropWhile_rdropWhile, List.rdropWhile_idempotent]

variable {rows : List GroupSubscription}

theorem latest_eq_none (h : latest rows = none) : rows = [] := by
  cases rows with
  | nil => rfl
  | cons r rows =>
    rw [latest] at h
    cases hl : latest rows <;> rw [hl] at h
    · cases h
    · dsimp only at h
      split_ifs at h

theorem latest_spec {m : GroupSubscription} (h : latest rows = some m) :
    m ∈ rows ∧ ∀ r ∈ rows, r.endTime < m.endTime ∨ (r.endTime = m.endTime ∧ r.id ≤ m.id) := by
  induction rows generalizing m with
  | nil => cases h
  | cons r rows ih =>
    rw [latest] at h
    cases hl : latest rows with
    | none =>
      rw [hl] at h
      cases h
      rw [latest_eq_none hl]
      exact ⟨List.mem_singleton_self _, by simp⟩
    | some m' =>
      rw [hl] at h
      obtain ⟨hmem, hmax⟩ := ih hl
      dsimp only at h
      split_ifs at h with hlat
      · cases h
        refine ⟨List.mem_cons_self, ?_⟩
        intro r' hr'
        rcases List.mem_cons.mp hr' with rfl | hin
        · exact .inr ⟨rfl, le_rfl⟩
        · have := hmax r' hin
          omega
      · cases h
        refine ⟨List.mem_cons_of_mem _ hmem, ?_⟩
        intro r' hr'
        rcases List.mem_cons.mp hr' with rfl | hin
        · omega
        · exact hmax r' hin

section Transactions
variable {env : Env} {w w' : GroupWorld}

variable {userId id : ℤ} {u : Unit}

variable {group message : String}

theorem getUserGroupByIdTx_eq_ok :
    getUserGroupByIdTx env userId w = .ok (group, w') ↔
      0 < userId ∧ env.fault 0 = false ∧ group = (w.groups userId).getD "" ∧ w' = w := by
  unfold getUserGroupByIdTx
  split_ifs with hid
  · have hnot : ¬ 0 < userId := by omega
    simp [hnot]
  have hpos : 0 < userId := by omega
  simp only [Tx.statement_bind_eq_ok, Tx.read_bind, Tx.pure_eq_ok, hpos, true_and]
  constructor
  · rintro ⟨hf, rfl, rfl⟩
    exact ⟨hf, rfl, rfl⟩
  · rintro ⟨hf, rfl, rfl⟩
    exact ⟨hf, rfl, rfl⟩

theorem updateUserGroup_eq_ok : updateUserGroup env userId group w = .ok (u, w') ↔
      env.fault 1 = false ∧ w' = w.setGroup userId group := by
  simp only [updateUserGroup, Tx.statement_bind_eq_ok, Tx.modify_apply, Except.ok.injEq,
    Prod.mk.injEq, true_and]
  exact and_congr_right fun _ => eq_comm

/-- The user is moved back to the group that the subscription remembers, or not, for one of
the reasons that the code checks. -/
def Downgraded (now : ℤ) (sub : GroupSubscription) (w w' : GroupWorld) : Prop :=
  (w' = w ∧ (trimSpace sub.upgradeGroup = "" ∨
      (w.groups sub.userId).getD "" ≠ trimSpace sub.upgradeGroup ∨
      (∃ r ∈ w.rows, r.activeUpgrade sub.userId now = true ∧ r.id ≠ sub.id) ∨
      trimSpace sub.prevUserGroup = "" ∨
      trimSpace sub.prevUserGroup = (w.groups sub.userId).getD "")) ∨
    (w' = w.setGroup sub.userId (trimSpace sub.prevUserGroup) ∧
      trimSpace sub.upgradeGroup ≠ "" ∧ trimSpace sub.prevUserGroup ≠ "")

variable {sub : GroupSubscription}

/-- What restoring a group has read and written. -/
theorem downgradeUserGroupForSubscriptionTx_ok {target : String}
    (h : downgradeUserGroupForSubscriptionTx env sub w = .ok (target, w')) :
    Downgraded env.now sub w w' := by
  unfold downgradeUserGroupForSubscriptionTx at h
  dsimp only at h
  split_ifs at h with hup
  · cases h
    exact .inl ⟨rfl, .inl hup⟩
  rw [Tx.bind_eq_ok] at h
  obtain ⟨current, v, hcur, h⟩ := h
  obtain ⟨-, -, rfl, rfl⟩ := getUserGroupByIdTx_eq_ok.mp hcur
  split at h
  · rename_i hoth
    cases h
    exact .inl ⟨rfl, .inr (.inl hoth)⟩
  rw [Tx.read_bind] at h
  split at h
  · rename_i hactive
    simp only [Tx.pure_eq_ok] at h
    obtain ⟨r, hr, hfnd⟩ := List.any_eq_true.mp hactive.2
    simp only [Bool.and_eq_true, decide_eq_true_eq] at hfnd
    exact .inl ⟨h.2.symm, .inr (.inr (.inl ⟨r, hr, hfnd⟩))⟩
  split_ifs at h with hprev
  · cases h
    exact .inl ⟨rfl, .inr (.inr (.inr hprev))⟩
  simp only [Tx.bind_eq_ok, updateUserGroup_eq_ok, Tx.pure_eq_ok] at h
  obtain ⟨⟨⟩, v', ⟨-, rfl⟩, -, rfl⟩ := h
  exact .inr ⟨rfl, hup, fun hno => hprev (.inl hno)⟩

/-- The rows are older ones, ended or left out; those that are still active are unchanged. -/
structure RowsFrom (now : ℤ) (rows rows' : List GroupSubscription) : Prop where
  keys : (rows'.map GroupSubscription.id).Sublist (rows.map GroupSubscription.id)
  source : ∀ r' ∈ rows', ∃ r ∈ rows, r'.id = r.id ∧ r'.userId = r.userId ∧
    r'.upgradeGroup = r.upgradeGroup ∧ r'.prevUserGroup = r.prevUserGroup ∧
    (r' = r ∨ r'.status = .cancelled ∨
      (r'.status = .expired ∧ r.status = .active ∧ r'.endTime = r.endTime ∧ r.endTime ≤ now))

theorem RowsFrom.refl (now : ℤ) (rows : List GroupSubscription) : RowsFrom now rows rows :=
  ⟨List.Sublist.refl _, fun r hr => ⟨r, hr, rfl, rfl, rfl, rfl, .inl rfl⟩⟩

theorem RowsFrom.map {now : ℤ} {rows : List GroupSubscription}
    {f : GroupSubscription → GroupSubscription} (hid : ∀ r, (f r).id = r.id)
    (hf : ∀ r ∈ rows, (f r).userId = r.userId ∧ (f r).upgradeGroup = r.upgradeGroup ∧
      (f r).prevUserGroup = r.prevUserGroup ∧
      (f r = r ∨ (f r).status = .cancelled ∨ ((f r).status = .expired ∧ r.status = .active ∧
        (f r).endTime = r.endTime ∧ r.endTime ≤ now))) : RowsFrom now rows (rows.map f) := by
  refine ⟨?_, ?_⟩
  · rw [List.map_map, show GroupSubscription.id ∘ f = GroupSubscription.id from funext hid]
  · intro r' hr'
    obtain ⟨r, hr, rfl⟩ := List.mem_map.mp hr'
    exact ⟨r, hr, hid r, hf r hr⟩

theorem RowsFrom.filter (now : ℤ) (rows : List GroupSubscription) (p : GroupSubscription → Bool) :
    RowsFrom now rows (rows.filter p) := by
  refine ⟨(List.filter_sublist (l := rows)).map _, ?_⟩
  intro r hr
  exact ⟨r, (List.mem_filter.mp hr).1, rfl, rfl, rfl, rfl, .inl rfl⟩

theorem findSubscription_ok
    (h : findSubscription env id w = .ok (sub, w')) : sub ∈ w.rows ∧ sub.id = id ∧ w' = w := by
  unfold findSubscription at h
  split_ifs at h with hid
  · cases h
  rw [Tx.statement_bind_eq_ok, Tx.read_bind] at h
  obtain ⟨-, h⟩ := h
  cases hfind : w.rows.find? fun r => decide (r.id = id) with
  | none => simp [hfind] at h
  | some r =>
    simp only [hfind] at h
    cases h
    exact ⟨List.mem_of_find?_eq_some hfind, by simpa using List.find?_some hfind, rfl⟩

theorem adminInvalidateUserSubscription_ok
    (h : adminInvalidateUserSubscription env id w = .ok (message, w')) :
    ∃ sub ∈ w.rows, sub.id = id ∧ Downgraded env.now sub
      { w with rows := w.rows.map fun r => if r.id = id then r.cancel env.now else r } w' := by
  unfold adminInvalidateUserSubscription at h
  rw [Tx.bind_eq_ok] at h
  obtain ⟨sub, v, hfind, h⟩ := h
  obtain ⟨hmem, hid, rfl⟩ := findSubscription_ok hfind
  rw [Tx.statement_bind_eq_ok, Tx.modify_bind, Tx.bind_eq_ok] at h
  obtain ⟨-, target, v', hdown, h⟩ := h
  cases h
  exact ⟨sub, hmem, hid, downgradeUserGroupForSubscriptionTx_ok hdown⟩

theorem adminDeleteUserSubscription_ok
    (h : adminDeleteUserSubscription env id w = .ok (message, w')) :
    ∃ sub ∈ w.rows, sub.id = id ∧ ∃ v, Downgraded env.now sub w v ∧
      w' = { v with rows := v.rows.filter fun r => decide (r.id ≠ id) } := by
  unfold adminDeleteUserSubscription at h
  rw [Tx.bind_eq_ok] at h
  obtain ⟨sub, v, hfind, h⟩ := h
  obtain ⟨hmem, hid, rfl⟩ := findSubscription_ok hfind
  rw [Tx.bind_eq_ok] at h
  obtain ⟨target, v', hdown, h⟩ := h
  rw [Tx.statement_bind_eq_ok, Tx.modify_bind] at h
  simp only [Tx.pure_eq_ok] at h
  exact ⟨sub, hmem, hid, v', downgradeUserGroupForSubscriptionTx_ok hdown, h.2.2.symm⟩

def expiredRows (userId now : ℤ) (rows : List GroupSubscription) : List GroupSubscription :=
  rows.map fun r => if r.dueAt userId now then { r with status := .expired } else r

/-- The expiry moves the user back to what the last ended subscription remembers, or not, for
one of the reasons that the code checks. -/
def ExpiryDowngraded (env : Env) (userId : ℤ) (w w' : GroupWorld) : Prop :=
  (w' = w ∧ ((∃ r ∈ w.rows, r.activeUpgrade userId env.now = true) ∨ env.fault 5 = true ∨
      lastExpired userId w.rows = none ∨ ∃ last, lastExpired userId w.rows = some last ∧
        (trimSpace last.upgradeGroup = "" ∨ trimSpace last.prevUserGroup = "" ∨
          (w.groups userId).getD "" ≠ trimSpace last.upgradeGroup ∨
          (w.groups userId).getD "" = trimSpace last.prevUserGroup))) ∨
    ∃ last, lastExpired userId w.rows = some last ∧ trimSpace last.prevUserGroup ≠ "" ∧
      w' = w.setGroup userId (trimSpace last.prevUserGroup)

/-- What an expiry has read and written. -/
theorem expireDueSubscriptions_ok (h : expireDueSubscriptions env userId w = .ok (u, w')) :
    ExpiryDowngraded env userId { w with rows := expiredRows userId env.now w.rows } w' := by
  unfold expireDueSubscriptions at h
  rw [Tx.statement_bind_eq_ok, Tx.modify_bind, Tx.read_bind] at h
  obtain ⟨-, h⟩ := h
  rw [show (w.rows.map fun r => if r.dueAt userId env.now then { r with status := .expired }
    else r) = expiredRows userId env.now w.rows from rfl] at h
  obtain ⟨v, hv⟩ : ∃ v, v = { w with rows := expiredRows userId env.now w.rows } := ⟨_, rfl⟩
  rw [← hv] at h ⊢
  split at h
  · rename_i hactive
    cases h
    exact .inl ⟨rfl, .inl (List.any_eq_true.mp hactive.2)⟩
  cases hf : env.fault 5 with
  | true =>
    simp only [hf] at h
    cases h
    exact .inl ⟨rfl, .inr (.inl hf)⟩
  | false =>
    simp only [hf, Bool.false_eq_true, if_false] at h
    cases hlast : lastExpired userId v.rows with
    | none =>
      simp only [hlast] at h
      cases h
      exact .inl ⟨rfl, .inr (.inr (.inl hlast))⟩
    | some last =>
      simp only [hlast] at h
      split at h
      · rename_i hbl
        cases h
        refine .inl ⟨rfl, .inr (.inr (.inr ⟨last, hlast, ?_⟩))⟩
        exact hbl.imp_right .inl
      rename_i hbl
      rw [Tx.bind_eq_ok] at h
      obtain ⟨current, v', hcur, h⟩ := h
      obtain ⟨-, -, rfl, rfl⟩ := getUserGroupByIdTx_eq_ok.mp hcur
      split at h
      · rename_i hkeep
        cases h
        exact .inl ⟨rfl, .inr (.inr (.inr ⟨last, hlast, .inr (.inr hkeep)⟩))⟩
      · obtain ⟨-, rfl⟩ := updateUserGroup_eq_ok.mp h
        exact .inr ⟨last, hlast, fun hno => hbl (.inr hno), rfl⟩

/-- The upgrade of the buyer: none, none needed, or from the current group. -/
theorem upgradeUserGroupTx_ok {upgradeGroup prev : String}
    (h : upgradeUserGroupTx env userId upgradeGroup w = .ok (prev, w')) : (prev = "" ∧ w' = w ∧
        (upgradeGroup = "" ∨ (w.groups userId).getD "" = upgradeGroup)) ∨
      (upgradeGroup ≠ "" ∧ prev = (w.groups userId).getD "" ∧
        w' = w.setGroup userId upgradeGroup) := by
  unfold upgradeUserGroupTx at h
  split at h
  · rename_i hup
    cases h
    exact .inl ⟨rfl, rfl, .inl hup⟩
  rename_i hup
  rw [Tx.bind_eq_ok] at h
  obtain ⟨current, v, hcur, h⟩ := h
  obtain ⟨-, -, rfl, rfl⟩ := getUserGroupByIdTx_eq_ok.mp hcur
  split at h
  · rename_i hsame
    cases h
    exact .inl ⟨rfl, rfl, .inr hsame⟩
  simp only [Tx.bind_eq_ok, updateUserGroup_eq_ok, Tx.pure_eq_ok] at h
  obtain ⟨⟨⟩, v', ⟨-, rfl⟩, rfl, rfl⟩ := h
  exact .inr ⟨hup, rfl, rfl⟩

def boughtRow (id userId : ℤ) (plan : SubscriptionPlan) (endTime : ℤ) (prev : String) :
    GroupSubscription where
  id := id
  userId := userId
  planId := plan.id
  endTime := endTime
  status := .active
  upgradeGroup := trimSpace plan.upgradeGroup
  prevUserGroup := prev

/-- What a purchase has read and written. -/
theorem createUserSubscriptionFromPlanTx_ok {addDate : ℤ → ℤ → ℤ → ℤ} {plan : SubscriptionPlan}
    (h : createUserSubscriptionFromPlanTx addDate env userId plan w = .ok (u, w')) :
    ∃ endTime prev v, calcPlanEndTime addDate env.now plan = .ok endTime ∧
      upgradeUserGroupTx env userId (trimSpace plan.upgradeGroup) w = .ok (prev, v) ∧ w' = { v with
        rows := v.rows ++ [boughtRow v.nextId userId plan endTime prev]
        nextId := v.nextId + 1 } := by
  unfold createUserSubscriptionFromPlanTx at h
  split at h
  · cases h
  split at h
  · cases h
  rw [Tx.read_bind, Tx.statement_bind_eq_ok] at h
  obtain ⟨-, h⟩ := h
  split at h
  · cases h
  cases hend : calcPlanEndTime addDate env.now plan with
  | error e => simp [hend] at h
  | ok endTime =>
    simp only [hend, Tx.bind_eq_ok] at h
    obtain ⟨prev, v, hup, ⟨⟩, v', hins, h⟩ := h
    obtain ⟨-, rfl⟩ := Tx.statement_eq_ok.mp hins
    cases h
    exact ⟨endTime, prev, v', rfl, hup, rfl⟩

end Transactions

end NewApi
