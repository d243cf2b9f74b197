import NewApi.Calendar
import NewApi.GoStrings
import NewApi.Int64

/-!
# The reset of a subscription

A plan may reset the used amount of its subscriptions every day, week or month, or after a number of
seconds. `maybeResetUserSubscriptionWithPlanTx` (`model/subscription.go`) catches up with the resets
that have fallen due. Times are 64-bit numbers of seconds, and a duration is a 64-bit number of
nanoseconds. The server's time zone is a fixed offset from UTC. The loop has fuel, and the result is
`none` when it is used up.
-/
namespace NewApi.SubscriptionReset
open Calendar

/-- How often the use starts again. -/
inductive ResetPeriod where
  | never | daily | weekly | monthly | custom
  deriving DecidableEq

def ResetPeriod.text : ResetPeriod → String
  | .never => "never"
  | .daily => "daily"
  | .weekly => "weekly"
  | .monthly => "monthly"
  | .custom => "custom"

def normalizeResetPeriod (period : String) : ResetPeriod :=
  match trimSpace period with
  | "daily" => .daily
  | "weekly" => .weekly
  | "monthly" => .monthly
  | "custom" => .custom
  | _ => .never

/-- What is read of a plan. -/
structure Plan where
  quotaResetPeriod : String
  quotaResetCustomSeconds : ℤ
  deriving DecidableEq

/-- What `AdminCreateSubscriptionPlan` and `AdminUpdateSubscriptionPlan` do with the reset of a
plan. -/
def adminUpsertReset (req : Plan) : Except String Plan :=
  let plan := { req with quotaResetPeriod := (normalizeResetPeriod req.quotaResetPeriod).text }
  if plan.quotaResetPeriod = ResetPeriod.custom.text ∧ plan.quotaResetCustomSeconds ≤ 0 then
    .error "自定义重置周期需大于0秒"
  else .ok plan

/-- A time zone with a fixed offset of at most a day. -/
structure Zone where
  offset : ℤ
  offset_ge : -86400 ≤ offset
  offset_le : offset ≤ 86400

/-- `time.Date` at the start of a day. -/
def date (zone : Zone) (day : ℤ) : ℤ := wrapInt64 (midnight zone.offset day)

/-- The seconds from the year 1 to 1970. A `time.Time` counts from the year 1. -/
def unixToInternal : ℤ := 62135596800

/-- The seconds of `Time.Add`, which stop at the ends of the range. -/
def addSec (ext d : ℤ) : ℤ :=
  let sum := wrapInt64 (ext + d)
  if (ext < sum ↔ 0 < d) then sum else if 0 < d then 2 ^ 63 - 1 else -(2 ^ 63 - 1)

/-- The time after a number of seconds, as a duration. -/
def addDuration (base seconds : ℤ) : ℤ :=
  let duration := wrapInt64 (seconds * 1000000000)
  wrapInt64 (addSec (wrapInt64 (base + unixToInternal)) (duration / 1000000000) - unixToInternal)

/-- The next reset, without the end of the subscription. -/
def nextTime (zone : Zone) (base : ℤ) (plan : Plan) : Option ℤ :=
  let day := dayOf zone.offset base
  match normalizeResetPeriod plan.quotaResetPeriod with
  | .never => none
  | .daily => some (date zone (day + 1))
  | .weekly => some (date zone (day + (8 - if weekday day = 0 then 7 else weekday day)))
  | .monthly => some (date zone (firstOfMonth (monthOf day + 1)))
  | .custom =>
    if plan.quotaResetCustomSeconds ≤ 0 then none
    else some (addDuration base plan.quotaResetCustomSeconds)

/-- There is none after the end of the subscription. -/
def calcNextResetTime (zone : Zone) (base : ℤ) (plan : Plan) (endUnix : ℤ) : ℤ :=
  match nextTime zone base plan with
  | none => 0
  | some next => if 0 < endUnix ∧ endUnix < next then 0 else next

/-- What is read of a subscription. -/
structure Subscription where
  (startTime endTime amountUsed lastResetTime nextResetTime : ℤ)
  deriving DecidableEq

open Subscription

/-- The times that the loop starts from. -/
def Subscription.base (sub : Subscription) : ℤ :=
  if sub.lastResetTime ≤ 0 then sub.startTime else sub.lastResetTime

structure Progress where
  (base next : ℤ)
  advanced : Bool

/-- All boundaries up to now are passed in one call. -/
def catchUp (zone : Zone) (plan : Plan) (endUnix now : ℤ) : ℕ → Progress → Option Progress
  | 0, _ => none
  | fuel + 1, p =>
    if 0 < p.next ∧ p.next ≤ now then
      catchUp zone plan endUnix now fuel
        ⟨p.next, calcNextResetTime zone p.next plan endUnix, true⟩
    else some p

/-- What is saved after the loop. -/
def Subscription.settle (sub : Subscription) (p : Progress) : Subscription :=
  if p.advanced then
    { sub with amountUsed := 0, lastResetTime := p.base, nextResetTime := p.next }
  else if sub.nextResetTime = 0 ∧ 0 < p.next then
    { sub with nextResetTime := p.next, lastResetTime := p.base }
  else sub

/-- The use starts again if a boundary was passed. -/
def maybeResetUserSubscriptionWithPlanTx (zone : Zone) (fuel : ℕ) (sub : Subscription) (plan : Plan)
    (now : ℤ) : Option Subscription :=
  if 0 < sub.nextResetTime ∧ now < sub.nextResetTime then some sub
  else if normalizeResetPeriod plan.quotaResetPeriod = .never then some sub
  else
    (catchUp zone plan sub.endTime now fuel
      ⟨sub.base, calcNextResetTime zone sub.base plan sub.endTime, false⟩).map sub.settle

/-- A new subscription. -/
def createUserSubscriptionFromPlanTx (zone : Zone) (plan : Plan) (now endUnix : ℤ) : Subscription :=
  let nextReset := calcNextResetTime zone now plan endUnix
  { startTime := now
    endTime := endUnix
    amountUsed := 0
    lastResetTime := if 0 < nextReset then now else 0
    nextResetTime := nextReset }

/-- The first boundary between two periods after a time, in exact numbers. A period of a calendar
starts at midnight, and one of a number of seconds when the last one ends. -/
def NextBoundary (zone : Zone) (plan : Plan) (t u : ℤ) : Prop :=
  match normalizeResetPeriod plan.quotaResetPeriod with
  | .never => False
  | .daily => IsLeast {u | (∃ day ∈ Set.univ, midnight zone.offset day = u) ∧ t < u} u
  | .weekly => IsLeast {u | (∃ day ∈ {d | weekday d = 1}, midnight zone.offset day = u) ∧ t < u} u
  | .monthly =>
    IsLeast {u | (∃ day ∈ Set.range firstOfMonth, midnight zone.offset day = u) ∧ t < u} u
  | .custom => 0 < plan.quotaResetCustomSeconds ∧ u = t + plan.quotaResetCustomSeconds

/-- A boundary at which the subscription has not ended. An end of 0 is none. -/
def Subscription.Lasts (sub : Subscription) (u : ℤ) : Prop := 0 < sub.endTime → u ≤ sub.endTime

/-- A boundary within the subscription has passed. -/
def Subscription.Due (zone : Zone) (plan : Plan) (now : ℤ) (sub : Subscription) : Prop :=
  ∃ u, NextBoundary zone plan sub.base u ∧ u ≤ now ∧ sub.Lasts u

/-- The reset ends with the same result, and with the same once more. The used amount is cleared
exactly if a reset was due, and none is due any more. -/
structure ResetsTo (zone : Zone) (plan : Plan) (now : ℤ) (sub sub' : Subscription) : Prop where
  ends : ∃ n, ∀ fuel, n < fuel →
    maybeResetUserSubscriptionWithPlanTx zone fuel sub plan now = some sub'
  next : sub'.nextResetTime = 0 ∨ now < sub'.nextResetTime
  last : sub'.lastResetTime ≤ now
  cleared : sub.Due zone plan now → sub'.amountUsed = 0
  kept : ¬sub.Due zone plan now → sub'.amountUsed = sub.amountUsed
  caughtUp : ¬sub'.Due zone plan now
  again : ∃ n, ∀ fuel, n < fuel →
    maybeResetUserSubscriptionWithPlanTx zone fuel sub' plan now = some sub'

/-- A subscription whose next reset is the one of its plan. It has started, and times are at most
2 ^ 62, so that they do not wrap around. -/
structure Kept (zone : Zone) (plan : Plan) (now : ℤ) (sub : Subscription) : Prop where
  base_pos : 0 < sub.base
  base_le : sub.base ≤ now
  now_le : now ≤ 2 ^ 62
  next : sub.nextResetTime = 0 ∨
    sub.nextResetTime = calcNextResetTime zone sub.base plan sub.endTime

/-- The seconds of the plan are a duration. -/
def Plan.Fits (plan : Plan) : Prop :=
  normalizeResetPeriod plan.quotaResetPeriod = .custom → plan.quotaResetCustomSeconds ≤ 9223372036

section
variable {zone : Zone} {plan : Plan} {sub : Subscription} {now base endUnix next : ℤ}

theorem addSec_eq {ext d : ℤ} (hlow : -2 ^ 63 ≤ ext + d) (hhigh : ext + d < 2 ^ 63) :
    addSec ext d = ext + d := by
  unfold addSec
  rw [wrapInt64_eq_self hlow hhigh]
  exact if_pos (by omega)

section
variable (hbase : 0 < base) (hle : base ≤ 2 ^ 62)
include hbase hle

/-- The duration wraps around, but the time after it does not. -/
theorem addDuration_eq (seconds : ℤ) :
    addDuration base seconds = base + wrapInt64 (seconds * 1000000000) / 1000000000 := by
  obtain ⟨hlow, hhigh⟩ := wrapInt64_range (seconds * 1000000000)
  have hext : wrapInt64 (base + unixToInternal) = base + unixToInternal :=
    wrapInt64_eq_self (by unfold unixToInternal; omega) (by unfold unixToInternal; omega)
  unfold addDuration
  dsimp only
  rw [hext, addSec_eq, wrapInt64_eq_self] <;> unfold unixToInternal <;> omega

theorem addDuration_of_fits {seconds : ℤ} (hseco : 0 < seconds) (hfits : seconds ≤ 9223372036) :
    addDuration base seconds = base + seconds := by
  rw [addDuration_eq hbase hle seconds, wrapInt64_eq_self (by omega) (by omega),
    Int.mul_ediv_cancel _ (by norm_num)]

variable {day : ℤ}

theorem date_eq (hlow : dayOf zone.offset base ≤ day) (hhigh : day ≤ dayOf zone.offset base + 366) :
    date zone day = midnight zone.offset day ∧ midnight zone.offset day < 2 ^ 63 := by
  unfold date
  rw [wrapInt64_eq_self] <;> unfold midnight dayOf at * <;> omega

/-- A boundary at midnight is the next one if its day is. -/
theorem nextTime_midnight {days : Set ℤ}
    (hday : IsLeast {d | d ∈ days ∧ dayOf zone.offset base < d} day)
    (hnear : day ≤ dayOf zone.offset base + 366) :
    IsLeast {u | (∃ d ∈ days, midnight zone.offset d = u) ∧ base < u} (date zone day) ∧
      base < date zone day ∧ date zone day < 2 ^ 63 := by
  obtain ⟨hdate, hlt⟩ := date_eq hbase hle hday.1.2.le hnear
  have hleast := isLeast_midnight hday
  rw [hdate]
  exact ⟨hleast, hleast.1.2, hlt⟩

/-- The computed time is the next boundary, and no sum overflows. -/
theorem nextTime_spec (zone : Zone) (hfits : plan.Fits) (u : ℤ) :
    (NextBoundary zone plan base u ↔ nextTime zone base plan = some u) ∧
      (nextTime zone base plan = some u → base < u ∧ u < 2 ^ 63) := by
  -- a midnight is the only least boundary
  have hmidn : ∀ {day : ℤ} {days : Set ℤ},
      IsLeast {d | d ∈ days ∧ dayOf zone.offset base < d} day →
      day ≤ dayOf zone.offset base + 366 →
      (IsLeast {u | (∃ d ∈ days, midnight zone.offset d = u) ∧ base < u} u ↔
          some (date zone day) = some u) ∧
        (some (date zone day) = some u → base < u ∧ u < 2 ^ 63) := by
    intro day days hday hnear
    obtain ⟨hleast, hlt⟩ := nextTime_midnight hbase hle hday hnear
    constructor
    · rw [Option.some.injEq]
      exact ⟨hleast.unique, fun h => h ▸ hleast⟩
    · intro h
      rw [← Option.some.inj h]
      exact hlt
  unfold NextBoundary nextTime
  cases hperiod : normalizeResetPeriod plan.quotaResetPeriod with
  | never => simp
  | daily =>
    refine hmidn ⟨⟨Set.mem_univ _, by omega⟩, ?_⟩ (by omega)
    rintro d ⟨-, hd⟩
    exact hd
  | weekly =>
    refine hmidn (isLeast_monday _) ?_
    have hweek : 0 ≤ weekday (dayOf zone.offset base) := Int.emod_nonneg _ (by omega)
    split_ifs <;> omega
  | monthly => exact hmidn (isLeast_firstOfMonth _) (firstOfMonth_near _)
  | custom =>
    split_ifs with hpos
    · simp only [false_implies, and_true, iff_false]
      omega
    rw [addDuration_of_fits hbase hle (by omega) (hfits hperiod), Option.some.injEq]
    have hseco := hfits hperiod
    constructor
    · constructor <;> omega
    · omega

/-- The next reset is 0 if the subscription ends before it. -/
theorem calcNext_cases (zone : Zone) (hfits : plan.Fits) (endUnix : ℤ) :
    (calcNextResetTime zone base plan endUnix = 0 ∧
      ∀ u, NextBoundary zone plan base u → 0 < endUnix ∧ endUnix < u) ∨
    (NextBoundary zone plan base (calcNextResetTime zone base plan endUnix) ∧
      base < calcNextResetTime zone base plan endUnix ∧
      (0 < endUnix → calcNextResetTime zone base plan endUnix ≤ endUnix)) := by
  have hspec := nextTime_spec hbase hle zone hfits
  unfold calcNextResetTime
  cases hnext : nextTime zone base plan with
  | none =>
    refine .inl ⟨rfl, fun u hu => ?_⟩
    rw [(hspec u).1, hnext] at hu
    contradiction
  | some next =>
    dsimp only
    split_ifs with hend
    · refine .inl ⟨rfl, fun u hu => ?_⟩
      rw [(hspec u).1, hnext] at hu
      rw [← Option.some.inj hu]
      exact hend
    · exact .inr ⟨(hspec next).1.mpr hnext, ((hspec next).2 hnext).1, by omega⟩

theorem NextBoundary.unique (hfits : plan.Fits) {u v : ℤ}
    (hu : NextBoundary zone plan base u) (hv : NextBoundary zone plan base v) : u = v := by
  rw [(nextTime_spec hbase hle zone hfits u).1] at hu
  rw [(nextTime_spec hbase hle zone hfits v).1] at hv
  exact Option.some.inj (hu.symm.trans hv)

end

def Passed (now next : ℤ) : Prop := 0 < next ∧ next ≤ now

instance (now next : ℤ) : Decidable (Passed now next) := inferInstanceAs (Decidable (_ ∧ _))

/-- The subscription's next reset, which it need not have stored. -/
def Subscription.nextDue (zone : Zone) (plan : Plan) (sub : Subscription) : ℤ :=
  calcNextResetTime zone sub.base plan sub.endTime

theorem due_iff (hfits : plan.Fits) (h : Kept zone plan now sub) :
    sub.Due zone plan now ↔ Passed now (sub.nextDue zone plan) := by
  have hle : sub.base ≤ 2 ^ 62 := h.base_le.trans h.now_le
  have hbase := h.base_pos
  rcases calcNext_cases hbase hle zone hfits sub.endTime with
    ⟨hzero, hend⟩ | ⟨hboun, hlt, hend⟩
  · constructor
    · rintro ⟨u, hu, -, hlasts⟩
      have hlate := hend u hu
      have := hlasts hlate.1
      omega
    · rintro ⟨hpos, -⟩
      unfold nextDue at hpos
      omega
  · constructor
    · rintro ⟨u, hu, hnow, -⟩
      have hsame := hu.unique hbase hle hfits hboun
      unfold Passed nextDue
      omega
    · rintro ⟨-, hnow⟩
      exact ⟨_, hboun, hnow, hend⟩

theorem nextDue_eq_zero_or (hfits : plan.Fits) (h : Kept zone plan now sub) :
    sub.nextDue zone plan = 0 ∨ 0 < sub.nextDue zone plan := by
  have hbase := h.base_pos
  rcases calcNext_cases hbase (h.base_le.trans h.now_le) zone hfits sub.endTime with
    ⟨hzero, -⟩ | ⟨-, hlt, -⟩
  · exact .inl hzero
  · exact .inr (hbase.trans hlt)

theorem catchUp_passed {advanced : Bool} (h : Passed now next) (fuel : ℕ) :
    catchUp zone plan endUnix now (fuel + 1) ⟨base, next, advanced⟩ =
      catchUp zone plan endUnix now fuel
        ⟨next, calcNextResetTime zone next plan endUnix, true⟩ :=
  if_pos h

theorem catchUp_done {advanced : Bool} (h : ¬Passed now next) (fuel : ℕ) :
    catchUp zone plan endUnix now (fuel + 1) ⟨base, next, advanced⟩ = some ⟨base, next, advanced⟩ :=
  if_neg h

/-- The loop ends at a time whose next reset has not come. The measure is what is left until now. -/
theorem catchUp_spec (hfits : plan.Fits) (hnow : now ≤ 2 ^ 62) (n : ℕ) {base : ℤ}
    (hn : (now - base).toNat ≤ n) (hbase : 0 < base) (hle : base ≤ now) (advanced : Bool) :
    ∃ base', base ≤ base' ∧ base' ≤ now ∧ ¬Passed now (calcNextResetTime zone base' plan endUnix) ∧
      (¬Passed now (calcNextResetTime zone base plan endUnix) → base' = base) ∧ ∀ fuel, n < fuel →
        catchUp zone plan endUnix now fuel
            ⟨base, calcNextResetTime zone base plan endUnix, advanced⟩ =
          some ⟨base', calcNextResetTime zone base' plan endUnix,
            advanced || decide (Passed now (calcNextResetTime zone base plan endUnix))⟩ := by
  induction n using Nat.strong_induction_on generalizing base advanced with
  | _ n ih =>
    by_cases hpass : Passed now (calcNextResetTime zone base plan endUnix)
    · have hlt : base < calcNextResetTime zone base plan endUnix := by
        rcases calcNext_cases hbase (hle.trans hnow) zone hfits endUnix with
          ⟨hzero, -⟩ | ⟨-, hlt, -⟩
        · have := hpass.1
          omega
        · exact hlt
      have hnext := hpass.2
      obtain ⟨base', hge, hle', hnot, -, hrun⟩ := @ih (n - 1) (by omega) _
        (show (now - calcNextResetTime zone base plan endUnix).toNat ≤ n - 1 by omega)
        hpass.1 hnext true
      refine ⟨base', by omega, hle', hnot, fun h => absurd hpass h, fun fuel hfuel => ?_⟩
      obtain ⟨k, rfl⟩ := Nat.exists_eq_add_of_lt hfuel
      rw [catchUp_passed hpass, hrun (n + k) (by omega)]
      simp [hpass]
    · refine ⟨base, le_refl _, hle, hpass, fun _ => rfl, fun fuel hfuel => ?_⟩
      obtain ⟨k, rfl⟩ := Nat.exists_eq_add_of_lt hfuel
      rw [catchUp_done hpass]
      simp [hpass]

/-- Nothing is left to do: the next reset is stored, and has not come. -/
structure Settled (zone : Zone) (plan : Plan) (now : ℤ) (sub : Subscription) : Prop where
  next : sub.nextResetTime = sub.nextDue zone plan
  notPassed : ¬Passed now (sub.nextDue zone plan)

theorem Settled.again (h : Settled zone plan now sub) (fuel : ℕ) :
    maybeResetUserSubscriptionWithPlanTx zone (fuel + 1) sub plan now = some sub := by
  unfold maybeResetUserSubscriptionWithPlanTx
  split_ifs with hlat hnever
  · rfl
  · rfl
  · have hloop : catchUp zone plan sub.endTime now (fuel + 1)
        ⟨sub.base, sub.nextDue zone plan, false⟩ = some ⟨sub.base, sub.nextDue zone plan, false⟩ :=
      catchUp_done h.notPassed fuel
    have hsame : ¬(sub.nextResetTime = 0 ∧ 0 < sub.nextDue zone plan) := by
      rw [h.next]
      omega
    unfold nextDue at hloop hsame
    rw [hloop, Option.map_some, settle, if_neg Bool.false_ne_true, if_neg hsame]

theorem Kept.last_le (h : Kept zone plan now sub) : sub.lastResetTime ≤ now := by
  have hpos := h.base_pos
  have hle := h.base_le
  unfold base at hpos hle
  split_ifs at hpos hle <;> omega

/-- With nothing left to do, the times are as they should be. -/
theorem Settled.next_later (hfits : plan.Fits) (hkept : Kept zone plan now sub)
    (h : Settled zone plan now sub) : sub.nextResetTime = 0 ∨ now < sub.nextResetTime := by
  have hnot := h.notPassed
  rw [h.next]
  rcases nextDue_eq_zero_or hfits hkept with hzero | hpos
  · exact .inl hzero
  · unfold Passed at hnot
    exact .inr (by omega)

def Subscription.stamp (zone : Zone) (plan : Plan) (sub : Subscription) (used base : ℤ) :
    Subscription :=
  { sub with
    amountUsed := used
    lastResetTime := base
    nextResetTime := calcNextResetTime zone base plan sub.endTime }

/-- If the next reset is to come, there is nothing left to do. -/
theorem stamped {base : ℤ} (used : ℤ) (hpos : 0 < base) (hle : base ≤ now) (hnow : now ≤ 2 ^ 62)
    (hnot : ¬Passed now (calcNextResetTime zone base plan sub.endTime)) :
    Kept zone plan now (sub.stamp zone plan used base) ∧
      Settled zone plan now (sub.stamp zone plan used base) := by
  have hbase : (sub.stamp zone plan used base).base = base := if_neg (not_le.mpr hpos)
  have hdue : (sub.stamp zone plan used base).nextDue zone plan =
      calcNextResetTime zone base plan sub.endTime := by
    rw [nextDue, hbase, stamp]
  have hnext : (sub.stamp zone plan used base).nextResetTime =
      (sub.stamp zone plan used base).nextDue zone plan := by
    rw [hdue, stamp]
  refine ⟨⟨by omega, by omega, hnow, .inr hnext⟩, hnext, ?_⟩
  rw [hdue]
  exact hnot

/-- Without a later reset that is stored, the loop runs. -/
theorem reset_eq_catchUp (hsto : sub.nextResetTime ≤ 0 ∨ sub.nextResetTime ≤ now)
    (hdue : 0 < sub.nextDue zone plan) (fuel : ℕ) :
    maybeResetUserSubscriptionWithPlanTx zone fuel sub plan now =
      (catchUp zone plan sub.endTime now fuel
        ⟨sub.base, sub.nextDue zone plan, false⟩).map sub.settle := by
  have hperiod : normalizeResetPeriod plan.quotaResetPeriod ≠ .never := by
    intro hnever
    simp [nextDue, calcNextResetTime, nextTime, hnever] at hdue
  unfold maybeResetUserSubscriptionWithPlanTx
  rw [if_neg (by omega), if_neg hperiod]
  rfl

/-- The reset as a whole: nothing is left to do after it, and it has cleared the used amount if the
next reset had come. -/
theorem reset_settled (hfits : plan.Fits) (h : Kept zone plan now sub) :
    ∃ sub', Kept zone plan now sub' ∧ Settled zone plan now sub' ∧
      sub'.amountUsed = (if Passed now (sub.nextDue zone plan) then 0 else sub.amountUsed) ∧
      ∃ n, ∀ fuel, n < fuel →
        maybeResetUserSubscriptionWithPlanTx zone fuel sub plan now = some sub' := by
  have hsto : sub.nextResetTime = 0 ∨ sub.nextResetTime = sub.nextDue zone plan := h.next
  by_cases hpass : Passed now (sub.nextDue zone plan)
  · -- the loop runs, and the subscription starts again at the last boundary
    have hpas' := hpass
    unfold Passed at hpas'
    obtain ⟨base', hge, hle', hnot, -, hrun⟩ := catchUp_spec hfits h.now_le _ (le_refl _)
      h.base_pos h.base_le false
    have hadv : (false || decide (Passed now (calcNextResetTime zone sub.base plan
        sub.endTime))) = true := decide_eq_true hpass
    rw [hadv] at hrun
    have hnew := stamped 0 (h.base_pos.trans_le hge) hle' h.now_le hnot
    refine ⟨sub.stamp zone plan 0 base', hnew.1, hnew.2, ?_, (now - sub.base).toNat,
      fun fuel hfuel => ?_⟩
    · rw [if_pos hpass, stamp]
    · rw [reset_eq_catchUp (by omega) hpas'.1, nextDue, hrun fuel hfuel,
        Option.map_some, settle, if_pos rfl, stamp]
  rw [if_neg hpass]
  by_cases hstore : sub.nextResetTime = 0 ∧ 0 < sub.nextDue zone plan
  · -- the next reset is stored for the first time
    have hsettle : sub.settle ⟨sub.base, sub.nextDue zone plan, false⟩ =
        sub.stamp zone plan sub.amountUsed sub.base := by
      rw [settle, if_neg Bool.false_ne_true, if_pos hstore, stamp, nextDue]
    have hnew := stamped sub.amountUsed h.base_pos h.base_le h.now_le hpass
    refine ⟨_, hnew.1, hnew.2, by rw [stamp], 0, fun fuel hfuel => ?_⟩
    obtain ⟨k, rfl⟩ := Nat.exists_eq_add_of_lt hfuel
    rw [reset_eq_catchUp (by omega) hstore.2, Nat.zero_add, catchUp_done hpass,
      Option.map_some, hsettle]
  · have hdone : Settled zone plan now sub := by
      refine ⟨?_, hpass⟩
      rcases nextDue_eq_zero_or hfits h with hzero | hpos <;> omega
    refine ⟨sub, h, hdone, rfl, 0, fun fuel hfuel => ?_⟩
    obtain ⟨k, rfl⟩ := Nat.exists_eq_add_of_lt hfuel
    exact hdone.again _

/-- With a plan whose seconds are a duration, a subscription is reset as it should be. -/
theorem resetsTo_of_fits (hfits : plan.Fits) (h : Kept zone plan now sub) :
    ∃ sub', ResetsTo zone plan now sub sub' ∧ Kept zone plan now sub' := by
  obtain ⟨sub', hkept, hdone, hused, hruns⟩ := reset_settled hfits h
  refine ⟨sub', ?_, hkept⟩
  exact
    { ends := hruns
      next := hdone.next_later hfits hkept
      last := hkept.last_le
      cleared := fun hdue => by rw [hused, if_pos ((due_iff hfits h).mp hdue)]
      kept := fun hdue => by rw [hused, if_neg fun hpass => hdue ((due_iff hfits h).mpr hpass)]
      caughtUp := fun hdue => hdone.notPassed ((due_iff hfits hkept).mp hdue)
      again := ⟨0, fun fuel hfuel => by
        obtain ⟨k, rfl⟩ := Nat.exists_eq_add_of_lt hfuel
        exact hdone.again _⟩ }

theorem Kept.later {now' : ℤ} (h : Kept zone plan now sub) (hle : now ≤ now')
    (hnow : now' ≤ 2 ^ 62) : Kept zone plan now' sub :=
  ⟨h.base_pos, h.base_le.trans hle, hnow, h.next⟩

theorem kept_create (zone : Zone) (plan : Plan) (endUnix : ℤ) (hpos : 0 < now)
    (hnow : now ≤ 2 ^ 62) :
    Kept zone plan now (createUserSubscriptionFromPlanTx zone plan now endUnix) := by
  have hbase : (createUserSubscriptionFromPlanTx zone plan now endUnix).base = now := by
    unfold createUserSubscriptionFromPlanTx base
    dsimp only
    split_ifs <;> omega
  refine ⟨by omega, by omega, hnow, .inr ?_⟩
  rw [hbase, createUserSubscriptionFromPlanTx]

def resets (zone : Zone) (plan : Plan) (fuel : ℕ) (times : List ℤ) (sub : Subscription) :
    Option Subscription :=
  times.foldlM (fun sub now => maybeResetUserSubscriptionWithPlanTx zone fuel sub plan now) sub

theorem catchUp_advanced {fuel : ℕ} {p : Progress}
    (h : catchUp zone plan endUnix now fuel ⟨base, next, true⟩ = some p) : p.advanced = true := by
  induction fuel generalizing base next with
  | zero => contradiction
  | succ fuel ih =>
    by_cases hpass : Passed now next
    · rw [catchUp_passed hpass] at h
      exact ih h
    · rw [catchUp_done hpass] at h
      rw [← Option.some.inj h]

/-- At a later time the loop goes on from where it has ended before. -/
theorem catchUp_resume {later : ℤ} {fuel : ℕ} {p q : Progress} (hle : now ≤ later)
    (hpos : 0 < p.base) (hnext : p.next = calcNextResetTime zone p.base plan endUnix)
    (h : catchUp zone plan endUnix now fuel p = some q) :
    0 < q.base ∧ q.next = calcNextResetTime zone q.base plan endUnix ∧
      ∃ j, ∀ k, catchUp zone plan endUnix later (j + k) p = catchUp zone plan endUnix later k q := by
  induction fuel generalizing p with
  | zero => contradiction
  | succ fuel ih =>
    obtain ⟨base, next, advanced⟩ := p
    by_cases hpass : Passed now next
    · rw [catchUp_passed hpass] at h
      obtain ⟨hq, hqnext, j, hj⟩ := ih hpass.1 rfl h
      refine ⟨hq, hqnext, j + 1, fun k => ?_⟩
      rw [Nat.add_right_comm, catchUp_passed ⟨hpass.1, hpass.2.trans hle⟩, hj]
    · rw [catchUp_done hpass] at h
      obtain rfl := Option.some.inj h
      exact ⟨hpos, hnext, 0, fun k => by rw [Nat.zero_add]⟩

/-- A loop that runs leaves of the subscription only what no reset changes. -/
theorem settle_passed {sub' : Subscription} (hpass : Passed now next)
    (hsame : sub'.startTime = sub.startTime ∧ sub'.endTime = sub.endTime) (fuel : ℕ)
    (a b : Bool) :
    (catchUp zone plan endUnix now (fuel + 1) ⟨base, next, a⟩).map sub'.settle =
      (catchUp zone plan endUnix now (fuel + 1) ⟨base, next, b⟩).map sub.settle := by
  rw [catchUp_passed hpass, catchUp_passed hpass]
  refine Option.map_congr fun p hp => ?_
  rw [settle, settle, if_pos (catchUp_advanced hp), if_pos (catchUp_advanced hp)]
  cases sub
  cases sub'
  simp_all

/-- A reset may be left out if there is a later one. -/
theorem reset_resume {later : ℤ} {fuel : ℕ} {sub₁ : Subscription} (h : Kept zone plan now sub)
    (hle : now ≤ later)
    (h₁ : maybeResetUserSubscriptionWithPlanTx zone fuel sub plan now = some sub₁) :
    ∃ j, ∀ k, maybeResetUserSubscriptionWithPlanTx zone (j + (k + 1)) sub plan later =
      maybeResetUserSubscriptionWithPlanTx zone (k + 1) sub₁ plan later := by
  by_cases hsub : sub₁ = sub
  · exact ⟨0, fun k => by rw [hsub, Nat.zero_add]⟩
  unfold maybeResetUserSubscriptionWithPlanTx at h₁
  split_ifs at h₁ with hlater hnever
  · exact absurd (Option.some.inj h₁).symm hsub
  · exact absurd (Option.some.inj h₁).symm hsub
  obtain ⟨⟨base, next, advanced⟩, hq, hset⟩ := Option.map_eq_some_iff.mp h₁
  obtain ⟨hpos, hnext, j, hj⟩ := catchUp_resume hle h.base_pos rfl hq
  obtain ⟨hstart, hend, hbase, hsto⟩ : sub₁.startTime = sub.startTime ∧
      sub₁.endTime = sub.endTime ∧ sub₁.lastResetTime = base ∧ sub₁.nextResetTime = next := by
    rw [← hset] at hsub ⊢
    unfold settle at hsub ⊢
    split_ifs at hsub ⊢
    · exact ⟨rfl, rfl, rfl, rfl⟩
    · exact ⟨rfl, rfl, rfl, rfl⟩
    · exact absurd rfl hsub
  have hdue : sub₁.base = base ∧ sub₁.nextDue zone plan = next := by
    have hb : sub₁.base = base := by rw [Subscription.base, hbase, if_neg (not_le.mpr hpos)]
    rw [nextDue, hb, hend]
    exact ⟨rfl, hnext.symm⟩
  refine ⟨j, fun k => ?_⟩
  have hloop : maybeResetUserSubscriptionWithPlanTx zone (j + (k + 1)) sub plan later =
      (catchUp zone plan sub.endTime later (k + 1) ⟨base, next, advanced⟩).map sub.settle := by
    rw [← hj, maybeResetUserSubscriptionWithPlanTx, if_neg (by omega), if_neg hnever]
  by_cases hpass : Passed later next
  · rw [hloop, reset_eq_catchUp (.inr (hsto ▸ hpass.2)) (hdue.2 ▸ hpass.1), hdue.1, hdue.2, hend]
    exact (settle_passed hpass ⟨hstart, hend⟩ k _ _).symm
  · have hdone : Settled zone plan later sub₁ := ⟨hsto.trans hdue.2.symm, hdue.2.symm ▸ hpass⟩
    rw [hloop, catchUp_done hpass, Option.map_some, hset, hdone.again]

/-- However often a subscription was reset before, the last reset leaves it as it would alone. -/
theorem resets_eq_last (hfits : plan.Fits) (times : List ℤ) (last : ℤ) {now : ℤ}
    {sub : Subscription} (h : Kept zone plan now sub)
    (hsrt : (now :: (times ++ [last])).Pairwise (· ≤ ·)) (hlast : last ≤ 2 ^ 62) :
    ∃ sub' n, ∀ fuel, n < fuel → resets zone plan fuel (times ++ [last]) sub = some sub' ∧
      maybeResetUserSubscriptionWithPlanTx zone fuel sub plan last = some sub' := by
  induction times generalizing now sub with
  | nil =>
    have hle : now ≤ last := List.rel_of_pairwise_cons hsrt (by simp)
    obtain ⟨sub', -, -, -, n, hrun⟩ := reset_settled hfits (h.later hle hlast)
    refine ⟨sub', n, fun fuel hfuel => ⟨?_, hrun fuel hfuel⟩⟩
    simp [resets, hrun fuel hfuel]
  | cons t times ih =>
    obtain ⟨hnow, hrest⟩ := List.pairwise_cons.mp hsrt
    have hle : t ≤ last := List.rel_of_pairwise_cons hrest (by simp)
    have hkept := h.later (hnow t (by simp)) (hle.trans hlast)
    obtain ⟨sub₁, hkept₁, -, -, m, hfst⟩ := reset_settled hfits hkept
    obtain ⟨sub', n, hruns⟩ := ih hkept₁ hrest
    obtain ⟨j, hj⟩ := reset_resume hkept hle (hfst (m + 1) (by omega))
    refine ⟨sub', m + n + j, fun fuel hfuel => ⟨?_, ?_⟩⟩
    · have hlater := (hruns fuel (by omega)).1
      unfold resets at hlater ⊢
      rw [List.cons_append, List.foldlM_cons, hfst fuel (by omega)]
      exact hlater
    · obtain ⟨k, rfl⟩ : ∃ k, fuel = j + (k + 1) := ⟨fuel - j - 1, by omega⟩
      rw [hj, (hruns (k + 1) (by omega)).2]

/-- A loop whose next reset does not move does not end. -/
theorem catchUp_stuck (hpass : Passed now next)
    (hnext : calcNextResetTime zone next plan endUnix = next) (fuel : ℕ) (p : Progress)
    (hp : p.next = next) : catchUp zone plan endUnix now fuel p = none := by
  induction fuel generalizing p with
  | zero => rfl
  | succ fuel ih =>
    obtain ⟨base, next', advanced⟩ := p
    subst hp
    rw [catchUp_passed hpass]
    exact ih _ hnext

/-- If the computed next reset has come, the used amount is cleared. -/
theorem cleared_of_passed {fuel : ℕ} {sub' : Subscription} (hsto : sub.nextResetTime = 0)
    (hpass : Passed now (sub.nextDue zone plan))
    (h : maybeResetUserSubscriptionWithPlanTx zone fuel sub plan now = some sub') :
    sub'.amountUsed = 0 := by
  rw [reset_eq_catchUp (by omega) hpass.1] at h
  obtain ⟨p, hloop, rfl⟩ := Option.map_eq_some_iff.mp h
  have hadv : p.advanced = true := by
    cases fuel with
    | zero => contradiction
    | succ fuel =>
      rw [catchUp_passed hpass] at hloop
      exact catchUp_advanced hloop
  rw [settle, if_pos hadv]

/-- Seconds that are too many give another duration, after which the amount is cleared too soon. -/
theorem fits_of_resets
    (h : ∀ now sub, Kept zone plan now sub → ∃ sub', ResetsTo zone plan now sub sub') :
    plan.Fits := by
  intro hcustom
  by_contra hlg
  obtain ⟨step, hstep⟩ :
    ∃ step, wrapInt64 (plan.quotaResetCustomSeconds * 1000000000) / 1000000000 = step := ⟨_, rfl⟩
  obtain ⟨hlow, hhigh⟩ := wrapInt64_range (plan.quotaResetCustomSeconds * 1000000000)
  -- the subscription starts so late that the computed reset is positive
  obtain ⟨start, hst⟩ : ∃ start, max 1 (1 - step) = start := ⟨_, rfl⟩
  obtain ⟨now, hnow⟩ : ∃ now, max start (start + step) = now := ⟨_, rfl⟩
  have hnext : calcNextResetTime zone start plan 0 = start + step := by
    simp only [calcNextResetTime, nextTime, hcustom]
    rw [if_neg (by omega), addDuration_eq (by omega) (by omega) _, hstep]
    exact if_neg (by omega)
  let sub : Subscription := ⟨start, 0, 1, 0, 0⟩
  have hkept : Kept zone plan now sub :=
    ⟨show 0 < start by omega, show start ≤ now by omega, by omega, .inl rfl⟩
  obtain ⟨sub', hres⟩ := h now sub hkept
  have hnotDue : ¬sub.Due zone plan now := by
    rintro ⟨u, hu, hle, -⟩
    rw [NextBoundary, hcustom] at hu
    have hlate : u = start + plan.quotaResetCustomSeconds := hu.2
    omega
  obtain ⟨n, hends⟩ := hres.ends
  have hpass : Passed now (sub.nextDue zone plan) := by
    show Passed now (calcNextResetTime zone start plan 0)
    rw [hnext]
    unfold Passed
    omega
  have hclea := cleared_of_passed rfl hpass (hends (n + 1) (by omega))
  rw [hres.kept hnotDue] at hclea
  exact absurd hclea (show (1 : ℤ) ≠ 0 by omega)

theorem normalizeResetPeriod_text (period : ResetPeriod) :
    normalizeResetPeriod period.text = period := by
  cases period <;> decide +kernel

theorem adminUpsertReset_ok {req : Plan} (h : adminUpsertReset req = .ok plan) :
    plan.quotaResetPeriod = (normalizeResetPeriod plan.quotaResetPeriod).text ∧
      (normalizeResetPeriod plan.quotaResetPeriod = .custom →
        0 < plan.quotaResetCustomSeconds) := by
  unfold adminUpsertReset at h
  dsimp only at h
  split_ifs at h with hcustom
  rw [← Except.ok.inj h]
  rw [normalizeResetPeriod_text]
  refine ⟨rfl, fun hperiod => ?_⟩
  rw [hperiod] at hcustom
  exact not_le.mp fun hle => hcustom ⟨rfl, hle⟩

end

/-- A plan that an administrator may save resets all subscriptions that keep to it as it should,
exactly if its seconds are a 64-bit number of nanoseconds. -/
theorem reset_right_iff (zone : Zone) {req plan : Plan} (hplan : adminUpsertReset req = .ok plan) :
    (∀ now sub, Kept zone plan now sub → ∃ sub', ResetsTo zone plan now sub sub') ↔
      (plan.quotaResetPeriod = "custom" → plan.quotaResetCustomSeconds ≤ 9223372036) := by
  obtain ⟨htext, hposi⟩ := adminUpsertReset_ok hplan
  have hfits : plan.Fits ↔
      (plan.quotaResetPeriod = "custom" → plan.quotaResetCustomSeconds ≤ 9223372036) := by
    have hcustom : normalizeResetPeriod plan.quotaResetPeriod = .custom ↔
        plan.quotaResetPeriod = "custom" := by
      constructor
      · intro h
        rw [htext, h]
        rfl
      · intro h
        rw [h]
        exact normalizeResetPeriod_text .custom
    rw [Plan.Fits, hcustom]
  rw [← hfits]
  constructor
  · exact fits_of_resets
  · intro hplanF now sub hkept
    obtain ⟨sub', hres, -⟩ := resetsTo_of_fits hplanF hkept
    exact ⟨sub', hres⟩

def utc : Zone := ⟨0, by omega, by omega⟩

/-- A plan of an hour, and a subscription to it after a day. -/
theorem reset_right_hourly : ∃ sub', ResetsTo utc ⟨"custom", 3600⟩ 1000086400
    (createUserSubscriptionFromPlanTx utc ⟨"custom", 3600⟩ 1000000000 1002592000) sub' := by
  have hplan : adminUpsertReset ⟨" custom ", 3600⟩ = .ok ⟨"custom", 3600⟩ := by decide +kernel
  refine (reset_right_iff utc hplan).mpr (fun _ => by decide) _ _ ?_
  exact (kept_create utc _ _ (by decide) (by decide)).later (by decide) (by decide)

theorem resets_eq_last_hourly : ∃ sub' n, ∀ fuel, n < fuel →
    resets utc ⟨"custom", 3600⟩ fuel ([1000003600] ++ [1000086400])
      (createUserSubscriptionFromPlanTx utc ⟨"custom", 3600⟩ 1000000000 0) = some sub' ∧
    maybeResetUserSubscriptionWithPlanTx utc fuel
      (createUserSubscriptionFromPlanTx utc ⟨"custom", 3600⟩ 1000000000 0) ⟨"custom", 3600⟩
      1000086400 = some sub' :=
  resets_eq_last (fun _ => by decide) _ _ (kept_create utc _ _ (by decide) (by decide)) (by decide)
    (by decide)

/-- With 2 ^ 55 seconds the duration is 0, and the loop does not end. And when a plan is changed, a
subscription keeps a next reset that has passed. -/
theorem reset_fails : (adminUpsertReset ⟨"custom", 2 ^ 55⟩ = .ok ⟨"custom", 2 ^ 55⟩ ∧
      ∀ fuel, maybeResetUserSubscriptionWithPlanTx utc fuel
        (createUserSubscriptionFromPlanTx utc ⟨"custom", 2 ^ 55⟩ 1000000000 1002592000)
        ⟨"custom", 2 ^ 55⟩ 1000000000 = none) ∧
    ∃ sub, maybeResetUserSubscriptionWithPlanTx utc 1
        (createUserSubscriptionFromPlanTx utc ⟨"daily", 0⟩ 1000000000 1002592000)
        ⟨"monthly", 0⟩ 1000086400 = some sub ∧
      0 < sub.nextResetTime ∧ sub.nextResetTime ≤ 1000086400 := by
  refine ⟨⟨by decide +kernel, fun fuel => ?_⟩, ⟨_, rfl, by decide +kernel, by decide +kernel⟩⟩
  have hsub : createUserSubscriptionFromPlanTx utc ⟨"custom", 2 ^ 55⟩ 1000000000 1002592000 =
      ⟨1000000000, 1002592000, 0, 1000000000, 1000000000⟩ := by
    decide +kernel
  have hnext : calcNextResetTime utc 1000000000 ⟨"custom", 2 ^ 55⟩ 1002592000 = 1000000000 := by
    decide +kernel
  have hpass : Passed 1000000000 1000000000 := by decide
  rw [hsub, reset_eq_catchUp (.inr (by decide)) (by decide +kernel),
    catchUp_stuck hpass hnext fuel _ hnext]
  rfl

end NewApi.SubscriptionReset
