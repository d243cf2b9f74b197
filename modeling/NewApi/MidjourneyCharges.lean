import NewApi.Midjourney

/-!
# Conservation of Midjourney charges

The books of a submission: every copy has its price, wallet and token were charged at most
once, and only the wallet is ever refunded. That the refund belongs to a charge and is paid
once does not follow from the guard on the status alone; `MjCall.Sound` says what a call has
to find for it.
-/
namespace NewApi
open Midjourney

namespace MjState
variable (s : MjState)

/-- The submission was charged or will be. -/
def chargeable : Bool := s.charged || s.chargeDue.isSome

def refundsMade : ℕ := s.refunds + s.refundsDue.length

/-- The charge and every refund that was won are executed. -/
def quiet : Bool := s.chargeDue.isNone && s.refundsDue.isEmpty

/-- A finished task that was charged and succeeded costs its quota; one that was not charged or
failed costs nothing. -/
def Conserved (removed : ℤ) : Prop :=
  ∀ t, s.row = some t → t.progress = "100%" →
    (s.charged = true → t.status = .success → removed = t.quota) ∧
      (s.charged = false ∨ t.status = .failure → removed = 0)

/-- A task with a price is finished as failed after it was charged. -/
def failedCharged : Bool :=
  s.charged && s.row.any fun t =>
    decide (t.progress = "100%") && decide (t.status = .failure) && decide (t.quota ≠ 0)

end MjState

open MjState (submitted)

/-- The row that the call stores without the poller's guard. -/
def MjCall.unguarded : MjCall → MjState → Option Midjourney
  | .failWithoutId copy, s =>
    if (s.unnamed copy).isSome then s.row.map failedWithoutId else none
  | .failWithoutChannel copy, s =>
    if (s.polling copy).isSome then s.row.map failedWithoutChannel else none
  | .saveNotice notice item, s => s.notices[notice]?.map fun t => t.notified item
  | _, _ => none

/-- A write without the guard finds no refund yet, and does not store a task with a price as
failed that is charged or will be. -/
def MjCall.UnguardedSound (call : MjCall) (s : MjState) : Prop :=
  ∀ t ∈ call.unguarded s, s.refundsMade = 0 ∧
    (t.progress = "100%" → t.status = .failure → t.quota ≠ 0 → s.chargeable = false)

/-- A pass that wins its write finds no refund yet; if its item reports a failure of a task with
a price, the submission is charged or will be, and the item does not report success as well. -/
def MjCall.PollSound (copy : ℕ) (now : ℤ) (item : MidjourneyDto) (fails : Bool) (s : MjState) :
    Prop :=
  ∀ t ∈ s.polling copy, checkMjTaskNeedUpdate t (item.timed now t) = true → fails = false →
    s.unmoved t = true → s.refundsMade = 0 ∧ ((item.timed now t).failed = true → t.quota ≠ 0 →
        s.chargeable = true ∧ (item.timed now t).status ≠ .success)

/-- The call finds what a refund relies on. A charge fails only before a refund, and no refund
fails. -/
def MjCall.Sound : MjCall → MjState → Prop
  | .charge fails, s => fails = true → s.refundsMade = 0
  | .refund fails, _ => fails = false
  | .poll copy now item fails, s => MjCall.PollSound copy now item fails s
  | call, s => call.UnguardedSound s

instance (call : MjCall) (s : MjState) : Decidable (call.UnguardedSound s) :=
  inferInstanceAs (Decidable (∀ t ∈ call.unguarded s, _))

instance (call : MjCall) (s : MjState) : Decidable (call.Sound s) := by
  cases call <;> dsimp only [MjCall.Sound, MjCall.PollSound] <;> infer_instance

/-- What every run keeps for a submission with the price `quota`. -/
structure MjBooks (quota : ℤ) (s : MjState) : Prop where
  row : ∀ t, s.row = some t → t.quota = quota
  copies : ∀ t ∈ s.copies, t.quota = quota
  notices : ∀ t ∈ s.notices, t.quota = quota
  chargeDue : ∀ a, s.chargeDue = some a → a = quota
  refundsDue : ∀ a ∈ s.refundsDue, a = quota ∧ quota ≠ 0
  once : s.charged = true → s.chargeDue = none
  wallet : s.wallet = (if s.charged then quota else 0) - s.refunds * quota
  token : s.token = if s.charged then quota else 0

section Books
variable {quota : ℤ} {s : MjState}

theorem mjBooks_submitted (submission : Midjourney × Bool) (stored : Bool) :
    MjBooks submission.1.quota (submitted submission stored) := by
  constructor <;> cases stored <;> cases hchg : submission.2 <;> simp [submitted, hchg]

section
variable (h : MjBooks quota s)
include h

theorem MjBooks.charge (fails : Bool) : MjBooks quota (s.charge fails) := by
  unfold MjState.charge
  cases hdue : s.chargeDue with
  | none => exact h
  | some a =>
    have ha : a = quota := h.chargeDue a hdue
    have hnot : s.charged = false := by
      by_contra hc
      simp [h.once (by simpa using hc)] at hdue
    have hnone : MjBooks quota { s with chargeDue := none } :=
      { h with
        chargeDue := fun b hb => by cases hb
        once := fun _ => rfl }
    cases fails with
    | true => exact hnone
    | false =>
      have hwal := h.wallet
      have htok := h.token
      simp only [hnot, Bool.false_eq_true, if_false] at hwal htok
      have hwallet' : s.wallet + a = quota - s.refunds * quota := by rw [hwal, ha]; ring
      have htoken' : s.token + a = quota := by rw [htok, ha]; ring
      exact { hnone with once := fun _ => rfl, wallet := hwallet', token := htoken' }

theorem MjBooks.refund (fails : Bool) : MjBooks quota (s.refund fails) := by
  unfold MjState.refund
  cases hdue : s.refundsDue with
  | nil => exact h
  | cons a rest =>
    have hall := h.refundsDue
    rw [hdue] at hall
    have hrest : ∀ b ∈ rest, b = quota ∧ quota ≠ 0 := fun b hb =>
      hall b (List.mem_cons_of_mem a hb)
    cases fails with
    | true => exact { h with refundsDue := hrest }
    | false =>
      have ha : a = quota := (hall a List.mem_cons_self).1
      have hwal : s.wallet - a =
          (if s.charged then quota else 0) - ((s.refunds + 1 : ℕ) : ℤ) * quota := by
        rw [h.wallet, ha]
        push_cast
        ring
      exact { h with
        refundsDue := hrest
        wallet := hwal }

theorem MjBooks.load : MjBooks quota s.load := by
  unfold MjState.load
  split
  next t hrow =>
    split
    · exact { h with copies := List.forall_mem_append.mpr ⟨h.copies, by simpa using h.row t hrow⟩ }
    · exact h
  · exact h

theorem MjBooks.loadNotice : MjBooks quota s.loadNotice := by
  unfold MjState.loadNotice
  split
  next t hrow =>
    exact { h with notices := List.forall_mem_append.mpr ⟨h.notices, by simpa using h.row t hrow⟩ }
  · exact h

theorem MjBooks.store {t : Midjourney} (ht : t.quota = quota) :
    MjBooks quota { s with row := some t } := by
  have hrow : ∀ u, some t = some u → u.quota = quota := by
    rintro u ⟨⟩
    exact ht
  exact { h with row := hrow }

theorem MjBooks.overwrite {f : Midjourney → Midjourney}
    (hf : ∀ t, (f t).quota = t.quota) (b : Bool) :
    MjBooks quota (if b then s.overwrite f else s) := by
  have hrow : ∀ u, s.row.map f = some u → u.quota = quota := by
    intro u hu
    obtain ⟨t, ht, rfl⟩ := Option.map_eq_some_iff.mp hu
    rw [hf t, h.row t ht]
  cases b with
  | false => exact h
  | true => exact { h with row := hrow }

end

theorem MjState.polling_mem {copy : ℕ} {t : Midjourney} (h : s.polling copy = some t) :
    t ∈ s.copies := by
  obtain ⟨hget, -⟩ := Option.filter_eq_some_iff.mp h
  exact List.mem_of_getElem? hget

theorem MjBooks.poll (h : MjBooks quota s) (copy : ℕ) (now : ℤ) (item : MidjourneyDto)
    (fails : Bool) : MjBooks quota (s.poll copy now item fails) := by
  unfold MjState.poll
  cases hcopy : s.polling copy with
  | none => exact h
  | some t =>
    dsimp only
    have ht : t.quota = quota := h.copies t (MjState.polling_mem hcopy)
    split
    · have hcop : ∀ u ∈ s.copies.set copy (t.polled (item.timed now t)), u.quota = quota := by
        intro u hu
        rcases List.mem_or_eq_of_mem_set hu with hold | rfl
        · exact h.copies u hold
        · rw [polled_quota, ht]
      have hset : MjBooks quota
          { s with copies := s.copies.set copy (t.polled (item.timed now t)) } :=
        { h with copies := hcop }
      split
      · refine { hset with row := fun u hu => ?_, refundsDue := fun a ha => ?_ }
        · rw [MjState.pollWrite_row, Option.some.injEq] at hu
          rw [← hu, polled_quota, ht]
        · rw [MjState.pollWrite_refundsDue, List.mem_append] at ha
          rcases ha with hold | hnew
          · exact h.refundsDue a hold
          split at hnew
          · rename_i hret
            simp only [List.mem_singleton] at hnew
            simp only [Bool.and_eq_true, decide_eq_true_eq] at hret
            exact ⟨hnew.trans ht, ht ▸ hret.2⟩
          · cases hnew
      · exact hset
    · exact h

theorem MjBooks.step (h : MjBooks quota s) (call : MjCall) : MjBooks quota (call.step s) := by
  cases call with
  | charge fails => exact h.charge fails
  | load => exact h.load
  | poll copy now item fails => exact h.poll copy now item fails
  | refund fails => exact h.refund fails
  | failWithoutId copy =>
    exact h.overwrite failedWithoutId_quota _
  | failWithoutChannel copy =>
    exact h.overwrite failedWithoutChannel_quota _
  | loadNotice => exact h.loadNotice
  | saveNotice notice item =>
    simp only [MjCall.step, MjState.saveNotice]
    cases hntc : s.notices[notice]? with
    | none => exact h
    | some t => exact h.store (h.notices t (List.mem_of_getElem? hntc))

end Books

/-- What the sound runs keep: at most one refund, of a charge, for a task that is finished and
did not succeed; and a charged task that failed was refunded. -/
structure MjRefunds (quota : ℤ) (s : MjState) : Prop where
  once : s.refundsMade ≤ 1
  refunded : s.refundsMade = 1 → s.chargeable = true ∧ quota ≠ 0 ∧
    ∃ t, s.row = some t ∧ t.progress = "100%" ∧ t.status ≠ .success
  failed : ∀ t, s.row = some t → t.progress = "100%" → t.status = .failure →
    s.chargeable = true → quota ≠ 0 → s.refundsMade = 1

section Refunds
variable {quota : ℤ} {s s' : MjState}

section
variable (h : MjRefunds quota s)
include h

theorem MjRefunds.congr (hrow : s'.row = s.row)
    (hmade : s'.refundsMade = s.refundsMade) (hchg : s'.chargeable = s.chargeable) :
    MjRefunds quota s' := by
  obtain ⟨honce, href, hfail⟩ := h
  rw [← hmade, ← hrow, ← hchg] at *
  exact ⟨honce, href, hfail⟩

theorem MjRefunds.charge {fails : Bool}
    (hok : (MjCall.charge fails).Sound s) : MjRefunds quota (s.charge fails) := by
  unfold MjState.charge
  cases hdue : s.chargeDue with
  | none => exact h
  | some a =>
    have hchg : s.chargeable = true := by simp [MjState.chargeable, hdue]
    cases fails with
    | false =>
      refine h.congr rfl rfl ?_
      rw [hchg]
      rfl
    | true =>
      have hnone : s.refundsMade = 0 := hok rfl
      refine ⟨h.once, fun hone => ?_, fun t ht hp hs hc hq => ?_⟩
      · exact absurd (hone.symm.trans hnone) (by decide)
      · have hone := h.failed t ht hp hs hchg hq
        exact absurd (hone.symm.trans hnone) (by decide)

theorem MjRefunds.refund : MjRefunds quota (s.refund false) := by
  unfold MjState.refund
  cases hdue : s.refundsDue with
  | nil => exact h
  | cons a rest =>
    refine h.congr rfl ?_ rfl
    simp only [MjState.refundsMade, hdue, List.length_cons]
    simp
    omega

/-- A row stored before any refund, that is not a failure of a charge. -/
theorem MjRefunds.store {t : Midjourney} (hnone : s.refundsMade = 0)
    (hchg : t.progress = "100%" → t.status = .failure → quota ≠ 0 → s.chargeable = false) :
    MjRefunds quota { s with row := some t } := by
  refine ⟨h.once, fun hone => ?_, fun u hu hp hs hc hq => ?_⟩
  · exact absurd (hone.symm.trans hnone) (by decide)
  · cases hu
    have hf : s.chargeable = false := hchg hp hs hq
    exact absurd (hc.symm.trans hf) (by decide)

end

/-- A poll that ends a task as failed has seen the failure. -/
theorem polled_failed_iff (t : Midjourney) (item : MidjourneyDto) :
    (t.polled item).progress = "100%" → (t.polled item).status = .failure → item.failed = true := by
  intro hp hs
  cases hf : item.failed with
  | true => rfl
  | false =>
    have hprog : item.progress = "100%" := by
      simpa [polled, hf] using hp
    rw [polled_status] at hs
    simp [MidjourneyDto.failed, hprog, hs] at hf

theorem MjRefunds.overwrite (h : MjRefunds quota s) (hb : MjBooks quota s)
    {f : Midjourney → Midjourney} (hf : ∀ t, (f t).quota = t.quota) {b : Bool}
    (hok : ∀ t ∈ (if b then s.row.map f else none), s.refundsMade = 0 ∧
      (t.progress = "100%" → t.status = .failure → t.quota ≠ 0 → s.chargeable = false)) :
    MjRefunds quota (if b then s.overwrite f else s) := by
  cases b with
  | false => exact h
  | true =>
    simp only [if_true, MjState.overwrite] at hok ⊢
    cases hrow : s.row with
    | none => exact h.congr hrow.symm rfl rfl
    | some t =>
      obtain ⟨hnone, hfail⟩ := hok (f t) (by simp [hrow])
      rw [hf t, hb.row t hrow] at hfail
      exact h.store hnone hfail

theorem MjRefunds.poll (h : MjRefunds quota s) (hb : MjBooks quota s) {copy : ℕ} {now : ℤ}
    {item : MidjourneyDto} {fails : Bool} (hok : (MjCall.poll copy now item fails).Sound s) :
    MjRefunds quota (s.poll copy now item fails) := by
  unfold MjState.poll
  cases hcopy : s.polling copy with
  | none => exact h
  | some t =>
    dsimp only
    have ht : t.quota = quota := hb.copies t (MjState.polling_mem hcopy)
    split
    · rename_i hneed
      split
      · rename_i hwins
        obtain ⟨hnone, hret⟩ := hok t hcopy hneed hwins.1 hwins.2
        obtain ⟨item', hitem⟩ : ∃ item', item' = item.timed now t := ⟨_, rfl⟩
        rw [← hitem] at hret ⊢
        rw [ht] at hret
        by_cases href : item'.failed = true ∧ quota ≠ 0
        · -- the one refund, of a charge
          obtain ⟨hchg, hst⟩ := hret href.1 href.2
          have hmade : (MjState.pollWrite { s with copies := s.copies.set copy (t.polled item') }
              t item').refundsMade = 1 := by
            simp only [MjState.refundsMade] at hnone ⊢
            simp [MjState.pollWrite, ht, href]
            omega
          refine ⟨hmade.le, fun _ => ⟨hchg, href.2, t.polled item', rfl, ?_, hst⟩,
            fun _ _ _ _ _ _ => hmade⟩
          simp [polled, href.1]
        have hdue : (item'.failed && decide (t.quota ≠ 0)) = false := by
          cases hf : item'.failed with
          | false => rfl
          | true => simpa [ht, hf] using href
        have hwr : MjState.pollWrite { s with copies := s.copies.set copy (t.polled item') }
            t item' = { s with copies := s.copies.set copy (t.polled item')
                               row := some (t.polled item') } := by
          rw [MjState.pollWrite, hdue]
          simp
        rw [hwr]
        have hstore := h.store (t := t.polled item') hnone fun hp hs hq =>
          absurd ⟨polled_failed_iff t item' hp hs, hq⟩ href
        exact hstore.congr rfl rfl rfl
      · exact h.congr rfl rfl rfl
    · exact h

theorem MjRefunds.step (h : MjRefunds quota s) (hb : MjBooks quota s) {call : MjCall}
    (hok : call.Sound s) : MjRefunds quota (call.step s) := by
  cases call with
  | charge fails => exact h.charge hok
  | refund fails =>
    obtain rfl : fails = false := hok
    exact h.refund
  | poll copy now item fails => exact h.poll hb hok
  | load =>
    simp only [MjCall.step, MjState.load]
    split
    · split
      · exact h.congr rfl rfl rfl
      · exact h
    · exact h
  | loadNotice =>
    simp only [MjCall.step, MjState.loadNotice]
    split
    · exact h.congr rfl rfl rfl
    · exact h
  | failWithoutId copy =>
    exact h.overwrite hb failedWithoutId_quota hok
  | failWithoutChannel copy =>
    exact h.overwrite hb failedWithoutChannel_quota hok
  | saveNotice notice item =>
    have hsound : (MjCall.saveNotice notice item).UnguardedSound s := hok
    simp only [MjCall.step, MjState.saveNotice]
    cases hntc : s.notices[notice]? with
    | none => exact h
    | some t =>
      obtain ⟨hnone, hfail⟩ := hsound (t.notified item) (by simp [MjCall.unguarded, hntc])
      have hqt : (t.notified item).quota = quota := hb.notices t (List.mem_of_getElem? hntc)
      rw [hqt] at hfail
      exact h.store hnone hfail

end Refunds

inductive MjSubmission where
  | submit (action : MjAction) (response : MidjourneyResponse) (channelId quota now : ℤ)
  | swapFace (response : MidjourneyResponse) (channelId quota startTime now : ℤ)

def MjSubmission.result : MjSubmission → Midjourney × Bool
  | .submit action response channelId quota now =>
    relayMidjourneySubmit action response channelId quota now
  | .swapFace response channelId quota startTime now =>
    relaySwapFace response channelId quota startTime now

theorem withExisting_finished {t : Midjourney} (r : MidjourneyResponse) (now : ℤ)
    (ht : t.progress ≠ "100%") (h : (t.withExisting r now).progress = "100%") :
    (t.withExisting r now).status = .success := by
  unfold withExisting at h ⊢
  cases hexis : r.existing with
  | none => simp_all
  | some e =>
    obtain ⟨imageUrl, status⟩ := e
    by_cases hst : status = .success
    · simp [hst, finished]
    · simp [hexis, hst, ht] at h

/-- A task that is finished when it is stored has succeeded. -/
theorem MjSubmission.finished_success (sub : MjSubmission) (h : sub.result.1.progress = "100%") :
    sub.result.1.status = .success := by
  cases sub with
  | swapFace r channelId quota startTime now => simp [result, relaySwapFace, newMidjourney] at h
  | submit action r channelId quota now =>
    simp only [result, relayMidjourneySubmit] at h ⊢
    split
    · rfl
    rename_i hupload
    rw [if_neg hupload] at h
    split at h
    · rename_i hcode
      rw [if_pos hcode]
      refine withExisting_finished r now ?_ h
      split <;> simp [newMidjourney]
    · split at h <;> simp [newMidjourney] at h

theorem mjRefunds_submitted (sub : MjSubmission) (stored : Bool) :
    MjRefunds sub.result.1.quota (submitted sub.result stored) := by
  have hnone : (submitted sub.result stored).refundsMade = 0 := rfl
  refine ⟨by omega, fun h => by omega, fun t ht hp hs => ?_⟩
  cases stored with
  | false => cases ht
  | true =>
    cases ht
    rw [sub.finished_success hp] at hs
    cases hs

section Quiet
variable {quota : ℤ} {s : MjState}

theorem MjState.quiet_iff : s.quiet = true ↔ s.chargeDue = none ∧ s.refundsDue = [] := by
  simp [quiet]

/-- Once everything is executed, the books give the claim about the wallet. -/
theorem MjRefunds.conserved (h : MjRefunds quota s) (hb : MjBooks quota s)
    (hqt : s.quiet = true) : s.Conserved s.wallet := by
  obtain ⟨hdue, hrefu⟩ := MjState.quiet_iff.mp hqt
  have hmade : s.refundsMade = s.refunds := by simp [MjState.refundsMade, hrefu]
  have hchg : s.chargeable = s.charged := by simp [MjState.chargeable, hdue]
  have hwal := hb.wallet
  have honce := h.once
  intro t ht hp
  have hquota : t.quota = quota := hb.row t ht
  have hrefu01 : s.refunds = 0 ∨ s.refunds = 1 := by omega
  refine ⟨fun hc hs => ?_, fun hfree => ?_⟩
  · -- a refunded task has not succeeded
    have hnone : s.refunds = 0 := by
      rcases hrefu01 with h0 | h1
      · exact h0
      obtain ⟨-, -, u, hu, -, hst⟩ := h.refunded (hmade.trans h1)
      rw [ht] at hu
      cases hu
      exact absurd hs hst
    simp [hwal, hc, hnone, hquota]
  · cases hc : s.charged with
    | false =>
      have hnone : s.refunds = 0 := by
        rcases hrefu01 with h0 | h1
        · exact h0
        · obtain ⟨hcha, -⟩ := h.refunded (hmade.trans h1)
          rw [hchg, hc] at hcha
          cases hcha
      simp [hwal, hc, hnone]
    | true =>
      have hfail : t.status = .failure := by simpa [hc] using hfree
      by_cases hq : quota = 0
      · simp [hwal, hq]
      · have hone := h.failed t ht hp hfail (hchg.trans hc) hq
        simp [hwal, hc, hmade ▸ hone]

/-- A refund is not given to the token. -/
theorem MjBooks.token_conserved_iff (hb : MjBooks quota s) :
    s.Conserved s.token ↔ s.failedCharged = false := by
  unfold MjState.Conserved MjState.failedCharged
  rw [hb.token]
  cases hrow : s.row with
  | none => simp
  | some t =>
    have hqt : t.quota = quota := hb.row t hrow
    cases hc : s.charged with
    | false => simp
    | true => simp [hqt]

end Quiet

/-- Every submission, in every interleaving of its charge, poller passes, notices and failures in
bulk: if each call finds what a refund relies on, there is at most one refund, and once the
charge and the refund that was won are executed, a refund belongs to a charge and the wallet
is as it should be. The token is as it should be exactly if no charged task with a price has
failed. -/
theorem midjourney_charge_conserved (sub : MjSubmission) (stored : Bool) (calls : List MjCall)
    (hsound : Along MjCall.step MjCall.Sound calls (submitted sub.result stored)) :
    let s := run MjCall.step calls (submitted sub.result stored)
    s.refunds ≤ 1 ∧ (s.quiet = true → (0 < s.refunds → s.charged = true) ∧ s.Conserved s.wallet ∧
        (s.Conserved s.token ↔ s.failedCharged = false)) := by
  intro s
  obtain ⟨hb, h⟩ : MjBooks sub.result.1.quota s ∧ MjRefunds sub.result.1.quota s :=
    run_invariant (I := fun s => MjBooks sub.result.1.quota s ∧ MjRefunds sub.result.1.quota s)
      (fun call s hok hs => ⟨hs.1.step call, hs.2.step hs.1 hok⟩) hsound
      ⟨mjBooks_submitted sub.result stored, mjRefunds_submitted sub stored⟩
  have honce := h.once
  refine ⟨by unfold MjState.refundsMade at honce; omega, fun hqt => ⟨fun hpaid => ?_,
    h.conserved hb hqt, hb.token_conserved_iff⟩⟩
  obtain ⟨hdue, hrefu⟩ := MjState.quiet_iff.mp hqt
  have hmade : s.refundsMade = 1 := by
    unfold MjState.refundsMade at honce ⊢
    omega
  obtain ⟨hchg, -⟩ := h.refunded hmade
  simpa [MjState.chargeable, hdue] using hchg

def sampleContent : MjContent := ⟨"", "", 0, 0, 0, "", "", ""⟩

/-- The upstream took the submission, for a price of 100. -/
def imagineTask : MjSubmission := .submit (.other "IMAGINE") ⟨200, 1, "", "mj-1", none⟩ 1 100 0

/-- The upstream's queue was full; nothing is charged. -/
def refusedTask : MjSubmission :=
  .submit (.other "IMAGINE") ⟨200, 23, "queue full", "mj-1", none⟩ 1 100 0

def failedItem (progress : String) : MidjourneyDto :=
  ⟨.failure, progress, "banned prompt", sampleContent, none, none⟩

theorem midjourney_charge_conserved_sample :
    let calls : List MjCall := [.load, .charge false, .load, .poll 0 0 (failedItem "0%") false,
      .poll 1 0 (failedItem "0%") false, .refund false]
    let s := run MjCall.step calls (submitted imagineTask.result true)
    Along MjCall.step MjCall.Sound calls (submitted imagineTask.result true) ∧
      s.refunds = 1 ∧ s.wallet = 0 ∧ s.Conserved s.wallet := by
  intro calls s
  have hsound : Along MjCall.step MjCall.Sound calls
      (submitted imagineTask.result true) := by decide +kernel
  have h := midjourney_charge_conserved imagineTask true calls hsound
  exact ⟨hsound, by decide +kernel, by decide +kernel, (h.2 (by decide +kernel)).2.1⟩

/-- Four ways in which money is lost or made. A failed task keeps the token's charge. A failure
that a notice reports is not refunded. A submission that was never charged is refunded. A
list that repeats a failed task refunds it twice. -/
theorem midjourney_charges_lost_and_made :
    let after := fun (sub : MjSubmission) calls =>
      run MjCall.step calls (submitted sub.result true)
    let failed := after imagineTask [.charge false, .load, .poll 0 0 (failedItem "100%") false,
      .refund false]
    let noticed := after imagineTask [.charge false, .loadNotice, .saveNotice 0 (failedItem "100%")]
    let refused := after refusedTask [.load, .poll 0 0 (failedItem "100%") false, .refund false]
    let repeated := after imagineTask [.charge false, .load, .poll 0 0 (failedItem "0%") false,
      .poll 0 0 (failedItem "0%") false, .refund false, .refund false]
    (failed.quiet = true ∧ failed.failedCharged = true ∧ failed.token = 100) ∧
      (noticed.quiet = true ∧ noticed.failedCharged = true ∧ noticed.wallet = 100) ∧
      (refused.quiet = true ∧ refused.charged = false ∧ refused.wallet = -100) ∧
      (repeated.quiet = true ∧ repeated.refunds = 2 ∧ repeated.wallet = -100) := by
  decide +kernel

/-- In every run, sound or not: the price is taken at most once, from the wallet and the token, and
each refund gives the wallet the price. The token gets nothing back. -/
theorem midjourney_moves_price (sub : MjSubmission) (stored : Bool) (calls : List MjCall) :
    let s := run MjCall.step calls (submitted sub.result stored)
    let taken := if s.charged then sub.result.1.quota else 0
    s.wallet = taken - s.refunds * sub.result.1.quota ∧ s.token = taken := by
  intro s taken
  have h : MjBooks sub.result.1.quota s :=
    run_invariant_always (fun call _ h => h.step call) calls (mjBooks_submitted sub.result stored)
  exact ⟨h.wallet, h.token⟩

end NewApi
