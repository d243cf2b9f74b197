import Mathlib.Data.List.TakeWhile
import NewApi.SubscriptionUsage

/-!
# Requests that pre-consume from a subscription

A request id may be pre-consumed again by a retry, refunded by the session that gave up, and
refunded by the billing of the task that the request became. All three work on the record
under the request id. The system below runs them in any order, together with the writers of
the task rows, stale copies of these rows, and whatever else happens to other requests. The
record is not cleaned up meanwhile.
-/
namespace NewApi

/-- A request id as the entry points see it, without surrounding space. -/
structure RequestId where
  text : String
  trimmed : trimSpace text = text

theorem RequestId.eq_empty (q : RequestId) (h : q.text.toList.all isSpace = true) :
    q.text = "" := by
  have hdrop : q.text.toList.dropWhile isSpace = [] := by
    rw [List.dropWhile_eq_nil_iff]
    exact List.all_eq_true.mp h
  have := q.trimmed
  rw [trimSpace, hdrop] at this
  exact this.symm

/-- The database, whether a pre-consumption of the request has returned, and the copies of
task rows that were loaded. -/
structure RequestState where
  world : World
  granted : Bool
  copies : List Task

def RequestState.start (w : World) : RequestState := ⟨w, false, []⟩

/-- A call for the request. `writeTask` is any writer of task rows: one of the request's own
is inserted once its pre-consumption has returned, and its quota is a price. `others` stands
for everything that does not concern the request's record and the task rows. -/
inductive RequestCall where
  | preConsume (env lookup : Env) (due : ℤ → Bool) (userId amount : ℤ)
  | refund (env : Env)
  | writeTask (t : Task)
  | load (id : ℤ)
  | refundTask (env : Env) (n : ℕ) (payload : TaskBillingEventPayload)
  | others (w : World)

open RequestCall

namespace RequestCall
variable (q : RequestId)

def step : RequestCall → RequestState → RequestState
  | preConsume env lookup due userId amount, s =>
    let r := preConsumeUserSubscription env lookup due q.text userId amount s.world
    { s with world := r.2, granted := s.granted || r.1.isOk }
  | refund env, s => { s with world := (refundSubscriptionPreConsume env q.text s.world).2 }
  | writeTask t, s =>
    if t.privateData.requestId ≠ q.text ∨ (s.granted = true ∧ 0 ≤ t.quota) then
      { s with world := { s.world with tasks := s.world.tasks.put t.id t } }
    else s
  | load id, s =>
    match s.world.tasks id with
    | some t => { s with copies := s.copies ++ [t] }
    | none => s
  | refundTask env n payload, s =>
    match s.copies[n]? with
    | some t =>
      if t.privateData.requestId = q.text ∧ t.billingTargetQuota = 0 then
        { s with world :=
            (applyTaskBilling env t .finalizePending .refunded (some payload) s.world).2 }
      else s
    | none => s
  | others w, s =>
    { s with world := { w with
        tasks := s.world.tasks
        preConsumeRecords := fun k =>
          if k = q.text then s.world.preConsumeRecords k else w.preConsumeRecords k } }

def due : RequestCall → ℤ → Bool
  | preConsume _ _ due _ _ => due
  | _ => noneDue

/-- The change is what the call did for the request. Other requests are free to change the
subscriptions too. -/
def Makes (call : RequestCall) (s : RequestState) (change : UsageChange) : Prop :=
  match call with
  | others _ => change = .none
  | call => change.Explains call.due s.world.subscriptions (call.step q s).world.subscriptions

end RequestCall

/-- The changes that the calls made for the request, one by one. -/
inductive RequestHistory (q : RequestId) :
    List RequestCall → RequestState → List UsageChange → Prop
  | nil (s : RequestState) : RequestHistory q [] s []
  | cons {call : RequestCall} {calls : List RequestCall} {s : RequestState} {change : UsageChange}
      {changes : List UsageChange} (made : call.Makes q s change)
      (rest : RequestHistory q calls (call.step q s) changes) :
      RequestHistory q (call :: calls) s (change :: changes)

/-- The changes of `amount_used` among them. -/
def usageChanges (changes : List UsageChange) : List UsageChange :=
  changes.filter fun change => decide (change ≠ .none)

/-- The task belongs to another request, or to this one, which then has a record. -/
def RequestRow (q : RequestId) (w : World) (t : Task) : Prop :=
  t.privateData.requestId = q.text → (∃ r, w.preConsumeRecords q.text = some r) ∧ 0 ≤ t.quota

/-- The history fits the record: nothing without one, the charge, or the charge and its return
once the record is refunded. -/
def HistoryFits (history : List UsageChange) : Option SubscriptionPreConsumeRecord → Prop
  | none => history = []
  | some r => ∃ amount, history = [.raised r.userSubscriptionId amount] ∨
      (r.status = .refunded ∧ ∃ back,
        history = [.raised r.userSubscriptionId amount, .returned r.userSubscriptionId back])

structure RequestInvariant (q : RequestId) (s : RequestState) (history : List UsageChange) :
    Prop where
  named : ∀ r, s.world.preConsumeRecords q.text = some r → q.text ≠ ""
  granted : s.granted = true → ∃ r, s.world.preConsumeRecords q.text = some r
  rows : ∀ id t, s.world.tasks id = some t → RequestRow q s.world t
  copies : ∀ t ∈ s.copies, RequestRow q s.world t
  fits : HistoryFits history (s.world.preConsumeRecords q.text)

section Steps
variable {q : RequestId} {s : RequestState} {history : List UsageChange}

variable {w w' : World} {t : Task} {r : SubscriptionPreConsumeRecord}

theorem RequestRow.mono (h : RequestRow q w t) (hkept : (∃ r, w.preConsumeRecords q.text = some r) →
      ∃ r, w'.preConsumeRecords q.text = some r) : RequestRow q w' t :=
  fun hq => ⟨hkept (h hq).1, (h hq).2⟩

/-- A step whose task rows belonged to the request before, if they do, and that keeps the
record if there is one. -/
theorem RequestInvariant.records (h : RequestInvariant q s history) {granted : Bool}
    {history' : List UsageChange} (hrows : ∀ id t, w.tasks id = some t → RequestRow q s.world t)
    (hkept : (∃ r, s.world.preConsumeRecords q.text = some r) →
      ∃ r, w.preConsumeRecords q.text = some r)
    (hnamed : ∀ r, w.preConsumeRecords q.text = some r → q.text ≠ "")
    (hgra : granted = true → ∃ r, w.preConsumeRecords q.text = some r)
    (hfits : HistoryFits history' (w.preConsumeRecords q.text)) :
    RequestInvariant q { s with world := w, granted := granted } history' where
  named := hnamed
  granted := hgra
  rows := fun id t ht => (hrows id t ht).mono hkept
  copies := fun t ht => (h.copies t ht).mono hkept
  fits := hfits

/-- Marking the record keeps it, and is the place where the return is booked. -/
theorem HistoryFits.refunded (hst : r.status = .consumed) (h : HistoryFits history (some r))
    {change : UsageChange}
    (hch : change = .none ∨ ∃ back, change = .returned r.userSubscriptionId back) :
    HistoryFits (history ++ usageChanges [change]) (some { r with status := .refunded }) := by
  obtain ⟨amount, rfl | ⟨hre, -⟩⟩ := h
  · refine ⟨amount, ?_⟩
    rcases hch with rfl | ⟨back, rfl⟩
    · exact .inl rfl
    · exact .inr ⟨rfl, back, rfl⟩
  · rw [hst] at hre
    cases hre

theorem PreConsumed.recorded {due : ℤ → Bool} {requestId : String} {userId amount : ℤ}
    {r : SubscriptionPreConsumeResult} (h : PreConsumed due requestId userId amount w w' r) :
    w'.preConsumeRecords requestId = some
      { userId := userId, userSubscriptionId := r.userSubscriptionId, preConsumed := amount
        status := .consumed } := by
  rw [h.rest]
  exact Table.put_self _ _ _

theorem marked_record {records : Table String SubscriptionPreConsumeRecord} {requestId : String}
    (hr : records requestId = some r) :
    (records.modify requestId fun r => { r with status := .refunded }) requestId =
      some { r with status := .refunded } := by
  rw [Table.modify_self, hr]
  rfl

/-- Whoever is told that the pre-consumption went through finds its record. -/
theorem preConsumeUserSubscription_recorded (env lookup : Env) (due : ℤ → Bool) (requestId : String)
    (userId amount : ℤ) (w : World)
    (h : (preConsumeUserSubscription env lookup due requestId userId amount w).1.isOk = true) :
    ∃ record, (preConsumeUserSubscription env lookup due requestId userId amount w).2.preConsumeRecords
      requestId = some record := by
  cases hkn : w.preConsumeRecords requestId with
  | some record => exact ⟨record, by rw [preConsumeUserSubscription_known hkn, hkn]⟩
  | none =>
    cases hcall : preConsumeUserSubscription env lookup due requestId userId amount w with
    | mk result w' =>
      rw [hcall] at h
      cases result with
      | error e => cases h
      | ok r =>
        obtain ⟨-, -, hchg⟩ := preConsumeUserSubscription_ok hkn hcall
        exact ⟨_, hchg.recorded⟩

section
variable (h : RequestInvariant q s history)
include h

theorem RequestInvariant.preConsume (env lookup : Env)
    (due : ℤ → Bool) (userId amount : ℤ) : ∃ change,
      (preConsume env lookup due userId amount).Makes q s change ∧
      RequestInvariant q ((preConsume env lookup due userId amount).step q s)
        (history ++ usageChanges [change]) := by
  simp only [RequestCall.Makes, RequestCall.step, RequestCall.due]
  rcases preConsumeUserSubscription_cases env lookup due q.text userId amount s.world with
    ⟨hsame, -⟩ | ⟨hnone, hname, ham, r, w', hcall, hchg⟩
  · have htold := preConsumeUserSubscription_recorded env lookup due q.text userId amount s.world
    rw [hsame] at htold ⊢
    refine ⟨.none, UsageChange.none_explains _ _, ?_⟩
    refine h.records h.rows (fun hr => hr) h.named ?_ (by simpa [usageChanges] using h.fits)
    intro hgra
    rcases Bool.or_eq_true _ _ ▸ hgra with hbef | hnow
    · exact h.granted hbef
    · exact htold hnow
  rw [hcall]
  refine ⟨_, hchg.explained ham, ?_⟩
  have hrec := hchg.recorded
  have hhist : history = [] := by
    have := h.fits
    rwa [hnone] at this
  have htsk : w'.tasks = s.world.tasks := by rw [hchg.rest]
  refine h.records (htsk ▸ h.rows) (fun _ => ⟨_, hrec⟩) (fun _ _ => hname)
    (fun _ => ⟨_, hrec⟩) ?_
  rw [hrec, hhist]
  exact ⟨amount, .inl rfl⟩

theorem RequestInvariant.refund (env : Env) : ∃ change,
    (refund env).Makes q s change ∧ RequestInvariant q ((refund env).step q s)
        (history ++ usageChanges [change]) := by
  simp only [RequestCall.Makes, RequestCall.step, RequestCall.due]
  rcases refundSubscriptionPreConsume_cases env q.text s.world with
    hsame | ⟨r, hr, hst, hreco, htsk, hch⟩
  · rw [hsame]
    refine ⟨.none, UsageChange.none_explains _ _, ?_⟩
    simpa [usageChanges] using h
  refine ⟨_, hch, ?_⟩
  have hrec : (refundSubscriptionPreConsume env q.text s.world).2.preConsumeRecords q.text =
      some { r with status := .refunded } := by
    rw [hreco]
    exact marked_record hr
  have hfits : HistoryFits history (some r) := hr ▸ h.fits
  refine h.records (htsk ▸ h.rows) (fun _ => ⟨_, hrec⟩) (fun _ _ => h.named r hr)
    (fun _ => ⟨_, hrec⟩) ?_
  rw [hrec]
  refine hfits.refunded hst ?_
  split_ifs
  · exact .inr ⟨_, rfl⟩
  · exact .inl rfl

theorem RequestInvariant.writeTask (t : Task) :
    RequestInvariant q ((writeTask t).step q s) history := by
  rw [RequestCall.step]
  split_ifs with hok
  · refine { h with rows := ?_, copies := h.copies }
    intro id t' ht'
    replace ht' : s.world.tasks.put t.id t id = some t' := ht'
    by_cases hid : id = t.id
    · rw [hid, Table.put_self, Option.some.injEq] at ht'
      subst ht'
      intro hq
      rcases hok with hoth | ⟨hgra, hqt⟩
      · exact absurd hq hoth
      · exact ⟨h.granted hgra, hqt⟩
    · rw [Table.put_of_ne _ _ hid] at ht'
      exact h.rows id t' ht'
  · exact h

theorem RequestInvariant.load (id : ℤ) :
    RequestInvariant q ((load id).step q s) history := by
  rw [RequestCall.step]
  split
  · rename_i t ht
    refine { h with copies := ?_ }
    intro t' ht'
    rcases List.mem_append.mp ht' with hold | hnew
    · exact h.copies t' hold
    · rw [List.mem_singleton.mp hnew]
      exact h.rows id t ht
  · exact h

theorem RequestInvariant.others (w : World) :
    RequestInvariant q ((RequestCall.others w).step q s) history := by
  have hrec : ((RequestCall.others w).step q s).world.preConsumeRecords q.text =
      s.world.preConsumeRecords q.text := if_pos rfl
  rw [RequestCall.step] at hrec ⊢
  refine h.records h.rows ?_ ?_ ?_ ?_ <;> rw [hrec]
  · exact fun hr => hr
  · exact h.named
  · exact h.granted
  · exact h.fits

end

/-- What the full refund of a task of the request makes of the record and the subscription. -/
theorem refundTask_change (hq : t.privateData.requestId = q.text) (hname : q.text ≠ "")
    (hr : w.preConsumeRecords q.text = some r) (htgt : t.billingTargetQuota = 0)
    (hqt : 0 ≤ t.quota) (h : SubscriptionBilled t .finalizePending .refunded w w') :
    (w'.preConsumeRecords = w.preConsumeRecords ∧
        UsageChange.none.Explains noneDue w.subscriptions w'.subscriptions) ∨
      r.status = .consumed ∧ w'.preConsumeRecords q.text = some { r with status := .refunded } ∧
        ∃ change : UsageChange, change.Explains noneDue w.subscriptions w'.subscriptions ∧
          (change = .none ∨ ∃ back, change = .returned r.userSubscriptionId back) := by
  obtain ⟨adjusts, hclm, hch⟩ := h
  have hdlt : ¬ 0 < t.billingDelta := by
    simp only [Task.billingDelta, htgt]
    omega
  cases hsub : t.isSubscription with
  | false =>
    have hoth := hclm.other (by simp [Task.FullRefund, hsub])
    exact .inl ⟨hoth.1, by simpa [Task.usageChange, hsub] using hch⟩
  | true =>
    have hbl : t.privateData.requestId.toList.all isSpace = false := by
      rw [hq]
      by_contra hall
      exact hname (q.eq_empty (by simpa using hall))
    have hfull : t.FullRefund .finalizePending .refunded := ⟨hsub, rfl, rfl, htgt, hbl⟩
    obtain ⟨howner, ⟨-, rfl, hrec⟩ | ⟨hst, rfl, hrec⟩⟩ := hclm.recorded hfull r (hq ▸ hr)
    · exact .inl ⟨hrec, by simpa [Task.usageChange] using hch⟩
    refine .inr ⟨hst, ?_, _, hch, ?_⟩
    · rw [hrec, hq]
      exact marked_record hr
    · rw [Task.usageChange, if_neg hdlt, howner]
      split_ifs
      · exact .inr ⟨_, rfl⟩
      · exact .inl rfl

section
variable (h : RequestInvariant q s history)
include h

theorem RequestInvariant.billedRows {env : Env}
    {expected next : TaskBillingStatus} {payload : Option TaskBillingEventPayload}
    (htgt : t.billingTargetQuota = 0) (hb : Billed env t expected next payload s.world w) :
    ∀ id t', w.tasks id = some t' → RequestRow q s.world t' := by
  intro id t' ht'
  rw [hb.tasks] at ht'
  by_cases hid : id = t.id
  · subst hid
    rw [Table.modify_self] at ht'
    obtain ⟨row, hrow, rfl⟩ := Option.map_eq_some_iff.mp ht'
    intro hq
    exact ⟨(h.rows _ row hrow hq).1, le_of_eq htgt.symm⟩
  · rw [Table.modify_of_ne _ _ hid] at ht'
    exact h.rows id t' ht'

theorem RequestInvariant.refundTask (env : Env) (n : ℕ)
    (payload : TaskBillingEventPayload) : ∃ change, (refundTask env n payload).Makes q s change ∧
      RequestInvariant q ((refundTask env n payload).step q s)
        (history ++ usageChanges [change]) := by
  have hqt : RequestInvariant q s (history ++ usageChanges [.none]) := by
    simpa [usageChanges] using h
  simp only [RequestCall.Makes, RequestCall.step, RequestCall.due]
  cases hcopy : s.copies[n]? with
  | none => exact ⟨.none, UsageChange.none_explains _ _, hqt⟩
  | some t =>
    dsimp only
    split_ifs with hours
    · obtain ⟨hq, htgt⟩ := hours
      obtain ⟨⟨r, hr⟩, hquota⟩ := h.copies t (List.mem_of_getElem? hcopy) hq
      rcases applyTaskBilling_subscription env t .finalizePending .refunded (some payload)
        s.world with ⟨hsame, -⟩ | ⟨hbil, hsub⟩
      · rw [hsame]
        exact ⟨.none, UsageChange.none_explains _ _, hqt⟩
      generalize (applyTaskBilling env t .finalizePending .refunded (some payload) s.world).2
        = w' at hbil hsub ⊢
      have hname := h.named r hr
      have hrows := h.billedRows htgt hbil
      rcases refundTask_change hq hname hr htgt hquota hsub with
        ⟨hreco, hnone⟩ | ⟨hst, hrec, change, hch, hkind⟩
      · refine ⟨.none, hnone, hqt.records hrows ?_ ?_ ?_ ?_⟩ <;> rw [hreco]
        · exact fun hr => hr
        · exact h.named
        · exact h.granted
        · exact hqt.fits
      have hfits : HistoryFits history (some r) := hr ▸ h.fits
      refine ⟨change, hch, h.records hrows (fun _ => ⟨_, hrec⟩) (fun _ _ => hname)
        (fun _ => ⟨_, hrec⟩) ?_⟩
      rw [hrec]
      exact hfits.refunded hst hkind
    · exact ⟨.none, UsageChange.none_explains _ _, hqt⟩

/-- Every call makes one change for the request, and the history stays in step with the
record. -/
theorem RequestInvariant.step (call : RequestCall) :
    ∃ change, call.Makes q s change ∧
      RequestInvariant q (call.step q s) (history ++ usageChanges [change]) := by
  have hqt : ∀ {s'}, RequestInvariant q s' history →
      RequestInvariant q s' (history ++ usageChanges [.none]) := by
    intro s' h'
    simpa [usageChanges] using h'
  cases call with
  | preConsume env lookup due userId amount => exact h.preConsume env lookup due userId amount
  | refund env => exact h.refund env
  | writeTask t =>
    refine ⟨.none, ?_, hqt (h.writeTask t)⟩
    simp only [RequestCall.Makes, RequestCall.step]
    split_ifs <;> exact UsageChange.none_explains _ _
  | load id =>
    refine ⟨.none, ?_, hqt (h.load id)⟩
    simp only [RequestCall.Makes, RequestCall.step]
    split <;> exact UsageChange.none_explains _ _
  | refundTask env n payload => exact h.refundTask env n payload
  | others w => exact ⟨.none, rfl, hqt (h.others w)⟩

/-- The history of a whole run, call by call. -/
theorem RequestInvariant.run (calls : List RequestCall) :
    ∃ changes s', RequestHistory q calls s changes ∧
      RequestInvariant q s' (history ++ usageChanges changes) := by
  induction calls generalizing s history with
  | nil => exact ⟨[], s, .nil s, by simpa [usageChanges] using h⟩
  | cons call calls ih =>
    obtain ⟨change, hmakes, hnext⟩ := h.step call
    obtain ⟨changes, s', hrest, hend⟩ := ih hnext
    refine ⟨change :: changes, s', .cons hmakes hrest, ?_⟩
    rw [List.append_assoc] at hend
    simpa only [usageChanges, ← List.filter_append, List.singleton_append] using hend

end

end Steps

/-- For a new request id, whatever the order of its calls: the subscription is charged at
most once and gets something back at most once, after the charge. -/
theorem subscription_request_charged_once (q : RequestId) {w : World}
    (hrecord : w.preConsumeRecords q.text = none)
    (htasks : ∀ id t, w.tasks id = some t → t.privateData.requestId ≠ q.text)
    (calls : List RequestCall) :
    ∃ changes id amount back, RequestHistory q calls (.start w) changes ∧ usageChanges changes ∈
        [[], [.raised id amount], [.raised id amount, .returned id back]] := by
  have hst : RequestInvariant q (.start w) [] := by
    refine ⟨?_, by simp [RequestState.start], ?_, by simp [RequestState.start], ?_⟩
    · intro r hr
      rw [RequestState.start, hrecord] at hr
      cases hr
    · intro id t ht hq
      exact absurd hq (htasks id t ht)
    · rw [RequestState.start, hrecord]
      rfl
  obtain ⟨changes, s', hhist, hend⟩ := hst.run calls
  have hfits := hend.fits
  rw [List.nil_append] at hfits
  cases hr : s'.world.preConsumeRecords q.text with
  | none =>
    rw [hr] at hfits
    have hnil : usageChanges changes = [] := hfits
    exact ⟨changes, 0, 0, 0, hhist, by simp [hnil]⟩
  | some r =>
    rw [hr] at hfits
    obtain ⟨amount, hone | ⟨-, back, htwo⟩⟩ := hfits
    · exact ⟨changes, r.userSubscriptionId, amount, 0, hhist, by simp [hone]⟩
    · exact ⟨changes, r.userSubscriptionId, amount, back, hhist, by simp [htwo]⟩

/-- A task of request r1 that failed after it was charged to subscription 3. -/
def failedSubscriptionTask : Task :=
  { sampleTask with
    billingStatus := .finalizePending
    billingTargetQuota := 0
    privateData := { sampleTask.privateData with
      billingSource := .subscription, subscriptionId := 3, tokenId := 0 } }

/-- A retry after the charge, a refund by the session and one by the task, and another retry. -/
theorem subscription_request_charged_once_sample : ∃ changes id amount back,
      RequestHistory ⟨"r1", by decide⟩
        [.preConsume (.calm 0) (.calm 0) noneDue 1 4, .preConsume (.calm 1) (.calm 1) noneDue 1 4,
          .writeTask failedSubscriptionTask, .load 1, .refund (.calm 2),
          .refundTask (.calm 3) 0 ⟨"", "m", "default", "", true⟩,
          .preConsume (.calm 4) (.calm 4) noneDue 1 4]
        (.start subscribedWorld) changes ∧
      usageChanges changes ∈
        [[], [.raised id amount], [.raised id amount, .returned id back]] :=
  subscription_request_charged_once ⟨"r1", by decide⟩ rfl (fun _ _ h => by cases h) _

end NewApi
