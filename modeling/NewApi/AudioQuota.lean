import NewApi.Int64
import NewApi.Rounding

/-!
# The price of audio

A realtime session and a finished audio request are both priced by `calculateAudioQuota`, from a
record that each of them fills for itself. The record of a finished request has no model price.
-/
namespace NewApi.AudioQuota

structure TokenDetails where
  (textTokens audioTokens : ℕ)

structure QuotaInfo where
  (inputDetails outputDetails : TokenDetails)
  modelName : String
  usePrice : Bool
  (modelPrice modelRatio groupRatio : ℚ)

/-- The settings that prices are made of, those of a model by its name. -/
structure Settings where
  quotaPerUnit : ℚ
  (completionRatio audioRatio audioCompletionRatio : String → ℚ)

structure PriceData where
  usePrice : Bool
  (modelPrice modelRatio groupRatio : ℚ)

/-- The report of a request; the total is a number of its own. -/
structure Usage where
  (promptTokensDetails completionTokenDetails : TokenDetails)
  totalTokens : ℕ

variable (settings : Settings)

def calculateAudioQuota (info : QuotaInfo) : ℤ :=
  if info.usePrice then intPart (info.modelPrice * settings.quotaPerUnit * info.groupRatio)
  else
    let completionRatio := settings.completionRatio info.modelName
    let audioRatio := settings.audioRatio info.modelName
    let audioCompletionRatio := settings.audioCompletionRatio info.modelName
    let ratio := info.groupRatio * info.modelRatio
    let quota := (info.inputDetails.textTokens + info.outputDetails.textTokens * completionRatio +
      info.inputDetails.audioTokens * audioRatio +
      info.outputDetails.audioTokens * audioRatio * audioCompletionRatio) * ratio
    intPart (roundHalf (if ratio ≠ 0 ∧ quota ≤ 0 then 1 else quota))

def calculateWssQuota (modelName : String) (price : PriceData) (input output : TokenDetails) : ℤ :=
  calculateAudioQuota settings ⟨input, output, modelName, price.usePrice, price.modelPrice,
    price.modelRatio, price.groupRatio⟩

-- The settlement of a tiered expression, which comes first where there is one, is left out.
def postAudioConsumeQuota (modelName : String) (price : PriceData) (usage : Usage) : ℤ :=
  let quota := calculateAudioQuota settings ⟨usage.promptTokensDetails,
    usage.completionTokenDetails, modelName, price.usePrice, 0, price.modelRatio, price.groupRatio⟩
  if usage.totalTokens = 0 then 0 else quota

/-- The tokens of a report with the weights of their kinds. -/
def weightedTokens (modelName : String) (input output : TokenDetails) : ℚ :=
  input.textTokens + output.textTokens * settings.completionRatio modelName +
    input.audioTokens * settings.audioRatio modelName +
    output.audioTokens * settings.audioRatio modelName * settings.audioCompletionRatio modelName

theorem intPart_zero : intPart 0 = 0 := by
  decide +kernel

/-- A positive amount comes to nothing below half a unit, or where it is too large by exactly
the range of the integers. -/
theorem intPart_roundHalf_eq_zero {q : ℚ} (hq : 0 < q) :
    intPart (roundHalf q) = 0 ↔ q < 1 / 2 ∨ (2 ^ 64 : ℤ) ∣ ⌊q + 1 / 2⌋ := by
  have hfloor : roundHalf q = ⌊q + 1 / 2⌋ := if_pos hq.le
  rw [intPart_intCast, hfloor, wrapInt64_eq_zero_iff]
  refine ⟨.inr, ?_⟩
  rintro (hsmall | hdvd)
  · have hzero : ⌊q + 1 / 2⌋ = 0 := Int.floor_eq_zero_iff.mpr ⟨by linarith, by linarith⟩
    rw [hzero]
    exact dvd_zero _
  · exact hdvd

/-- Where a price per call applies, the two agree only if it is worth nothing. By ratio they agree
on every report with a total; without one the session pays at least one unit, unless the ratio is
zero or the tokens are worth less than half a unit. -/
theorem audio_quota_iff (modelName : String) (price : PriceData) (usage : Usage) :
    let ratio := price.groupRatio * price.modelRatio
    let quota := weightedTokens settings modelName usage.promptTokensDetails
      usage.completionTokenDetails * ratio
    postAudioConsumeQuota settings modelName price usage =
        calculateWssQuota settings modelName price usage.promptTokensDetails
          usage.completionTokenDetails ↔
      if price.usePrice then
        intPart (price.modelPrice * settings.quotaPerUnit * price.groupRatio) = 0
      else usage.totalTokens = 0 →
        ratio = 0 ∨ 0 < quota ∧ (quota < 1 / 2 ∨ (2 ^ 64 : ℤ) ∣ ⌊quota + 1 / 2⌋) := by
  intro ratio quota
  have hleft : postAudioConsumeQuota settings modelName price usage =
      if usage.totalTokens = 0 ∨ price.usePrice then 0
      else calculateWssQuota settings modelName price usage.promptTokensDetails
        usage.completionTokenDetails := by
    unfold postAudioConsumeQuota calculateWssQuota calculateAudioQuota
    cases price.usePrice <;> simp [intPart_zero]
  rw [hleft]
  cases hprice : price.usePrice with
  | true =>
    simp only [or_true, if_true, calculateWssQuota, calculateAudioQuota, hprice]
    exact eq_comm
  | false =>
    by_cases htot : usage.totalTokens = 0
    · have hwss : calculateWssQuota settings modelName price usage.promptTokensDetails
          usage.completionTokenDetails =
            intPart (roundHalf (if ratio ≠ 0 ∧ quota ≤ 0 then 1 else quota)) := by
        simp only [calculateWssQuota, calculateAudioQuota, hprice, Bool.false_eq_true, if_false]
        rfl
      simp only [htot, true_or, if_true, hwss, Bool.false_eq_true, if_false, true_imp_iff]
      rw [eq_comm]
      by_cases hzero : ratio = 0
      · have hquota : quota = 0 := by simp only [quota, hzero, mul_zero]
        have hnone : intPart (roundHalf 0) = 0 := by decide +kernel
        simp only [hzero, hquota, ne_eq, not_true_eq_false, false_and, if_false, hnone, true_or]
      by_cases hpos : 0 < quota
      · rw [if_neg fun h => hpos.not_ge h.2, intPart_roundHalf_eq_zero hpos]
        simp only [hzero, hpos, false_or, true_and]
      · rw [if_pos ⟨hzero, not_lt.mp hpos⟩]
        simp only [hzero, hpos, false_or, false_and, iff_false, roundHalf_one]
        decide +kernel
    · simp [htot]

/-- A model at two cents per call, with a hundred tokens of text and as many of audio: the session
is charged ten thousand units and the request none. -/
theorem audio_quota_differs :
    let settings : Settings := ⟨500000, fun _ => 4, fun _ => 20, fun _ => 2⟩
    let price : PriceData := ⟨true, 1 / 50, 0, 1⟩
    calculateWssQuota settings "gpt-4o-audio" price ⟨100, 0⟩ ⟨0, 100⟩ = 10000 ∧
      postAudioConsumeQuota settings "gpt-4o-audio" price ⟨⟨100, 0⟩, ⟨0, 100⟩, 200⟩ = 0 := by
  decide +kernel

end NewApi.AudioQuota
