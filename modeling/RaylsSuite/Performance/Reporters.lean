import RaylsSuite.Common.JsVal
import RaylsSuite.Foundation.Binary64
import RaylsSuite.Foundation.Number

/-! # The reporters of the performance tests

`JsonReporter` rebuilds the figures of a test into the metrics of its report,
where a figure that is zero is taken for one that is missing. `HtmlReporter`
computes the success rate once more, from the summary of these metrics.
-/

namespace RaylsSuite.Performance

open Foundation Common

/-- What `_buildMetrics` takes from the data of a test; a field is `none` when the test does not
set it. A TPS is a text with two decimals and stands for the number it was printed from. -/
structure TestData where
  testType : Option String := none
  startTime : Option ℚ := none
  endTime : Option ℚ := none
  transactionCount : Option ℚ := none
  actualTPS : Option Number := none
  duration : Option ℚ := none
  successfulTransactions : Option ℚ := none
  failedTransactions : Option ℚ := none
  rpcUrlA : Option String := none
  methodology : Option String := none
  rpnCount : Option ℚ := none
  testStartTime : Option ℚ := none
  settlementEndTime : Option ℚ := none
  totalTransactions : Option ℚ := none
  overallTPS : Option Number := none
  totalDuration : Option ℚ := none
  settlementDuration : Option ℚ := none
  batchSize : Option ℚ := none
  avgTimeBetweenSends : Option ℚ := none
  totalFlowDuration : Option ℚ := none
  stepBreakdown : Option JsVal := none
  configuration : Option JsVal := none

structure Summary where
  tps : Number
  successRate : ℚ
  hardFinality : ℚ
  totalTransactions : ℚ
  successfulTransactions : ℚ
  failedTransactions : ℚ
  batchSize : Option ℚ
  avgTimeBetweenSends : Option ℚ
  rpnCount : Option ℚ
deriving DecidableEq, Repr

structure Metrics where
  testType : String
  environment : String
  version : String
  startTime : ℚ
  endTime : ℚ
  methodology : String
  summary : Summary
  totalFlowDuration : Option ℚ
  stepBreakdown : Option JsVal
  configuration : Option JsVal

/-- `value || fallback` of numbers. -/
def orNumber (value fallback : Option ℚ) : Option ℚ :=
  match value with
  | none => fallback
  | some number => if number = 0 then fallback else some number

/-- `parseFloat(tps) || 0`. -/
def parseTPS : Option Number → Number
  | none | some .nan => .finite 0
  | some (.finite tps) => .finite (readFixed 2 tps)
  | some tps => tps

/-- `(dividend / divisor) * 100`. -/
def percentage (dividend divisor : ℚ) : ℚ := binary64 (binary64 (dividend / divisor) * 100)

namespace JsonReporter

def detectEnvironment (rpcUrl : Option String) : String :=
  match rpcUrl with
  | none => "unknown"
  | some rpcUrl =>
      let url := Text.toLowerCase rpcUrl
      if Text.includes url "pn-a:8545" || Text.includes url "localhost" ||
          Text.includes url "127.0.0.1" then "local"
      else "unknown"

variable (testData : TestData)

def finalTransactionCount : Option ℚ :=
  orNumber testData.transactionCount testData.totalTransactions

/-- Without a count the comparison fails, as it does for one that is zero. -/
def successRate : ℚ :=
  let count := (finalTransactionCount testData).getD 0
  if count > 0 then
    percentage ((orNumber testData.successfulTransactions (some count)).getD 0) count
  else 0

/-- `_buildMetrics`, given the version and the readings of the clock for missing times. -/
def buildMetrics (version : String) (startNow endNow : ℚ) : Metrics where
  testType := testData.testType.getD "A→B Performance Test"
  environment := detectEnvironment testData.rpcUrlA
  version
  startTime := (orNumber (orNumber testData.startTime testData.testStartTime)
    (some startNow)).getD 0
  endTime := (orNumber (orNumber testData.endTime testData.settlementEndTime)
    (some endNow)).getD 0
  methodology := Text.orElse testData.methodology ""
  summary := {
    -- a text is never falsy, whatever number it shows
    tps := parseTPS (testData.actualTPS.orElse fun _ => testData.overallTPS)
    successRate := readFixed 2 (successRate testData)
    hardFinality := (orNumber testData.duration
      (orNumber testData.totalDuration testData.settlementDuration)).getD 0
    totalTransactions := (finalTransactionCount testData).getD 0
    successfulTransactions := (orNumber testData.successfulTransactions
      (finalTransactionCount testData)).getD 0
    failedTransactions := testData.failedTransactions.getD 0
    batchSize := testData.batchSize
    avgTimeBetweenSends := testData.avgTimeBetweenSends
    rpnCount := testData.rpnCount }
  totalFlowDuration := testData.totalFlowDuration
  stepBreakdown := testData.stepBreakdown
  configuration := testData.configuration

end JsonReporter

/-- The number that the page shows as the success rate, a text with two decimals or 0. -/
def HtmlReporter.successRate (summary : Summary) : ℚ :=
  if summary.totalTransactions ≠ 0 then
    toFixed 2 (percentage summary.successfulTransactions summary.totalTransactions)
  else 0

/-! ## What the reporters make of the figures of a test -/

/-- The report accounts for `n` operations of which `s` have settled: two decimals are half a
hundredth, up to the rounding of doubles. -/
structure ReportsTruly (n s : Nat) (summary : Summary) : Prop where
  successful : summary.successfulTransactions = s
  failed : summary.failedTransactions = n - s
  rate : |summary.successRate - 100 * s / n| ≤ 1 / 200 + 1 / 10 ^ 10
  html : binary64 (HtmlReporter.successRate summary) = summary.successRate

/-- A share of the whole in percent survives the rounding of the quotient, of the product and of
the text with two decimals. -/
theorem readFixed_percentage {s n : Nat} (hle : s ≤ n) (hn : 0 < n) :
    |readFixed 2 (percentage s n) - 100 * s / n| ≤ 1 / 200 + 1 / 10 ^ 10 := by
  have hnq : (0 : ℚ) < n := Nat.cast_pos.mpr hn
  have hnonneg : (0 : ℚ) ≤ (s : ℚ) / n := by positivity
  have hshare : (s : ℚ) / n ≤ 1 := (div_le_one hnq).mpr (Nat.cast_le.mpr hle)
  have hpercent : 100 * (s : ℚ) / n = 100 * (s / n) := mul_div_assoc 100 (s : ℚ) n
  have hquotient := binary64_relative ((s : ℚ) / n)
  have hproduct := binary64_relative (binary64 ((s : ℚ) / n) * 100)
  have hfixed := toFixed_error 2 (percentage s n)
  have hread := binary64_relative (toFixed 2 (percentage s n))
  rw [hpercent]
  rw [abs_of_nonneg hnonneg] at hquotient
  change |percentage s n - binary64 ((s : ℚ) / n) * 100| ≤ _ at hproduct
  change |readFixed 2 (percentage s n) - toFixed 2 (percentage s n)| ≤ _ at hread
  generalize (s : ℚ) / n = share at *
  generalize binary64 share = quotient at *
  generalize percentage s n = product at *
  generalize toFixed 2 product = decimal at *
  generalize readFixed 2 product = read at *
  rw [abs_le] at hquotient hfixed ⊢
  have hbound : |quotient * 100| ≤ 101 := by
    rw [abs_le]
    constructor <;> linarith
  have hproduct : |product - quotient * 100| ≤ 101 / 2 ^ 53 :=
    hproduct.trans (div_le_div_of_nonneg_right hbound (by positivity))
  rw [abs_le] at hproduct
  have hdecimal : |decimal| ≤ 102 := by
    rw [abs_le]
    constructor <;> linarith
  have hread : |read - decimal| ≤ 102 / 2 ^ 53 :=
    hread.trans (div_le_div_of_nonneg_right hdecimal (by positivity))
  rw [abs_le] at hread
  constructor <;> linarith

section Figures

variable {testData : TestData} {n s sent : Nat} {figure : ℚ}

/-- What the report counts as successes, where a figure that is zero gives way to the count. -/
theorem buildMetrics_successful (version : String) (startNow endNow : ℚ)
    (hfinal : JsonReporter.finalTransactionCount testData = some (n : ℚ))
    (hfigure : testData.successfulTransactions = some figure) :
    (JsonReporter.buildMetrics testData version startNow endNow).summary.successfulTransactions =
      if figure = 0 then (n : ℚ) else figure := by
  simp only [JsonReporter.buildMetrics, hfigure, hfinal, orNumber]
  split <;> rfl

/-- A test that reports `figure` successes, and as many failures as it did not send, accounts for
the `s` operations that have settled exactly when these are all that it sent and the figure counts
them, or is zero where all that it attempted have settled. -/
theorem buildMetrics_accounted_iff (version : String) (startNow endNow : ℚ)
    (hcount : testData.transactionCount = some (n : ℚ))
    (hfigure : testData.successfulTransactions = some figure)
    (hfailed : testData.failedTransactions = some ((n : ℚ) - sent))
    (hsent : 0 < sent) (hle : sent ≤ n) :
    ReportsTruly n s (JsonReporter.buildMetrics testData version startNow endNow).summary ↔
      s = sent ∧ (figure = s ∨ figure = 0 ∧ s = n) := by
  have hn : (0 : ℚ) < n := Nat.cast_pos.mpr (hsent.trans_le hle)
  have hfinal : JsonReporter.finalTransactionCount testData = some (n : ℚ) := by
    rw [JsonReporter.finalTransactionCount, hcount, orNumber, if_neg hn.ne']
  have hreported := buildMetrics_successful version startNow endNow hfinal hfigure
  constructor
  · rintro ⟨hsuccessful, hfailures, -, -⟩
    constructor
    · simp only [JsonReporter.buildMetrics, hfailed, Option.getD_some] at hfailures
      have hcast : (s : ℚ) = sent := by linarith
      exact_mod_cast hcast
    · rw [hreported] at hsuccessful
      split at hsuccessful
      next hzero => exact .inr ⟨hzero, (Nat.cast_injective hsuccessful).symm⟩
      next => exact .inl hsuccessful
  · rintro ⟨rfl, hcounted⟩
    have hs : (s : ℚ) ≠ 0 := (Nat.cast_pos.mpr hsent).ne'
    have hsuccessful : (JsonReporter.buildMetrics testData version startNow
        endNow).summary.successfulTransactions = s := by
      rw [hreported]
      rcases hcounted with rfl | ⟨rfl, rfl⟩
      · rw [if_neg hs]
      · rw [if_pos rfl]
    have hrate : JsonReporter.successRate testData = percentage s n := by
      have hshare : orNumber testData.successfulTransactions (some (n : ℚ)) = some (s : ℚ) := by
        rcases hcounted with rfl | ⟨rfl, rfl⟩
        · rw [hfigure, orNumber, if_neg hs]
        · rw [hfigure, orNumber, if_pos rfl]
      simp only [JsonReporter.successRate, hfinal, Option.getD_some, hshare, gt_iff_lt, if_pos hn]
    refine ⟨hsuccessful, ?_, ?_, ?_⟩
    · simp only [JsonReporter.buildMetrics, hfailed, Option.getD_some]
    · simp only [JsonReporter.buildMetrics, hrate]
      exact readFixed_percentage hle (hsent.trans_le hle)
    · rw [HtmlReporter.successRate, hsuccessful]
      simp only [JsonReporter.buildMetrics, hrate, hfinal, Option.getD_some, ne_eq, hn.ne',
        not_false_eq_true, if_true]
      rfl

end Figures

end RaylsSuite.Performance
