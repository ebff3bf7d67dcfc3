import TradingBot.Research.RegimeQuality

namespace TradingBot.Research.RegimeBehaviour

open Library.Dictionary Research.RegimeQuality

section Policies

inductive BehaviourLabel
  | profitable | defensiveInactive | controlledBleed | whipsawProne | lateExit | lateEntry | overactiveReentry
  | costIntensive | tailRiskExposed | shockDependent | insufficientEvidence
deriving DecidableEq, Repr, Countable

def BehaviourLabel.value : BehaviourLabel → String
  | .profitable => "PROFITABLE"
  | .defensiveInactive => "DEFENSIVE_INACTIVE"
  | .controlledBleed => "CONTROLLED_BLEED"
  | .whipsawProne => "WHIPSAW_PRONE"
  | .lateExit => "LATE_EXIT"
  | .lateEntry => "LATE_ENTRY"
  | .overactiveReentry => "OVERACTIVE_REENTRY"
  | .costIntensive => "COST_INTENSIVE"
  | .tailRiskExposed => "TAIL_RISK_EXPOSED"
  | .shockDependent => "SHOCK_DEPENDENT"
  | .insufficientEvidence => "INSUFFICIENT_EVIDENCE"

structure BehaviourPolicy where
  version : String
  description : String
  profitableNetMin : String
  controlledBleedNetMin : String
  costIntensiveRatio : String
  whipsawMinTrades : ℕ
  tailRiskMin : String
  shockConcentrationMin : String
  lateEntryTimeInMarketMax : String
  lateExitTimeInMarketMin : String
  overactiveReentryTradeMultiplier : ℕ
  highTransitionCountMin : ℕ
  highTransitionWindowNetMax : String
  weaknessPriority : List BehaviourLabel
  strengthPriority : List BehaviourLabel
deriving DecidableEq, Repr, Countable

def policyRegistry : Dict String BehaviourPolicy :=
  Dict.set {} "1.0"
    { version := "1.0"
      description := "Generic P4.9 behaviour labels over regime_metrics raw fields. " ++
        "Not private Strategy V1 thresholds; no LLM; no auto-promotion. " ++
        "PROFITABLE requires net_pnl >= 0.01 (break-even / missing ≠ profit). " ++
        "Zero trades: DEFENSIVE_INACTIVE only on SIDEWAYS; BULL/BEAR → LATE_ENTRY."
      profitableNetMin := "0.01"
      controlledBleedNetMin := "-50"
      costIntensiveRatio := "0.35"
      whipsawMinTrades := 5
      tailRiskMin := "0.15"
      shockConcentrationMin := "0.6"
      lateEntryTimeInMarketMax := "0.1"
      lateExitTimeInMarketMin := "0.85"
      overactiveReentryTradeMultiplier := 2
      highTransitionCountMin := 3
      highTransitionWindowNetMax := "-25"
      weaknessPriority :=
        [.tailRiskExposed, .whipsawProne, .shockDependent, .costIntensive, .overactiveReentry, .lateExit, .lateEntry,
          .controlledBleed, .insufficientEvidence]
      strengthPriority := [.profitable, .defensiveInactive] }

def getBehaviourPolicy (version : String) : Except EvidenceError BehaviourPolicy :=
  match policyRegistry.get? version with
  | none => .error (.behaviourPolicyError ("unknown behaviour policy version: '" ++ version ++ "'"))
  | some policy => .ok policy

end Policies

section Labels

variable {D : Type} (lang : RegimeQuality.Language D)

def optionalDec : Option String → Except EvidenceError (Option D)
  | none => .ok none
  | some text => do pure (some (← lang.parse text))

def isTrending (trend : String) : Bool := trend = "BULL" || trend = "BEAR"

def deriveActiveLabels (row : RegimeRow) (policy : BehaviourPolicy) : Except EvidenceError (List BehaviourLabel) := do
  let net ← lang.parse row.netPnl
  let trades := row.closedTrades
  let fee ← lang.parse row.costs.fees
  let slip ← lang.parse row.costs.slippageCosts
  let fund ← lang.parse row.costs.fundingCosts
  let totalCost := lang.add (lang.add fee slip) fund
  let expectancy ← optionalDec lang row.expectancy
  let tail ← optionalDec lang row.tailLoss
  let concentration ← optionalDec lang row.pnlConcentration
  let timeInMarket ← optionalDec lang row.timeInMarket
  let profitableFloor ← lang.parse policy.profitableNetMin
  if lang.le profitableFloor lang.zero then pure [.insufficientEvidence]
  else
    let bleedFloor ← lang.parse policy.controlledBleedNetMin
    let costRatio ← lang.parse policy.costIntensiveRatio
    let tailMin ← lang.parse policy.tailRiskMin
    let shockMin ← lang.parse policy.shockConcentrationMin
    let lateEntryMax ← lang.parse policy.lateEntryTimeInMarketMax
    let lateExitMin ← lang.parse policy.lateExitTimeInMarketMin
    let denom := lang.max (lang.abs net) lang.one
    let loss := lang.lt net lang.zero
    let noGain := lang.le net lang.zero
    let label := fun (condition : Bool) (label : BehaviourLabel) => if condition then [label] else []
    let labels :=
      (if lang.le profitableFloor net then [.profitable] else label (lang.le bleedFloor net) .controlledBleed) ++
        label (lang.le costRatio (lang.div totalCost denom)) .costIntensive ++
        label (policy.whipsawMinTrades ≤ trades && expectancy.any (lang.le · lang.zero) && loss) .whipsawProne ++
        label (tail.any (lang.le tailMin ·)) .tailRiskExposed ++
        label (concentration.any (lang.le shockMin ·) && loss) .shockDependent ++
        label (isTrending row.trend && timeInMarket.any (lang.lt · lateEntryMax) && noGain) .lateEntry ++
        label (isTrending row.trend && timeInMarket.any (lang.lt lateExitMin ·) && loss) .lateExit ++
        label (policy.whipsawMinTrades * policy.overactiveReentryTradeMultiplier ≤ trades && noGain)
          .overactiveReentry
    if labels.isEmpty then pure [.insufficientEvidence]
    else pure (labels.insertionSort fun a b => a.value ≤ b.value)

def deriveRegimeLabels (row : RegimeRow) (policy : BehaviourPolicy) (evidenceTrusted : Bool) :
    Except EvidenceError (List BehaviourLabel) :=
  if !evidenceTrusted then .ok [.insufficientEvidence]
  else if row.status = .insufficientEvidence ∨ row.trend = "INSUFFICIENT" then .ok [.insufficientEvidence]
  else if row.zeroActivity ∨ row.closedTrades = 0 then
    if row.trend = "SIDEWAYS" then .ok [.defensiveInactive]
    else if isTrending row.trend then .ok [.lateEntry]
    else .ok [.insufficientEvidence]
  else deriveActiveLabels lang row policy

def pickMain (labels priority : List BehaviourLabel) : Option BehaviourLabel := priority.find? (· ∈ labels)

end Labels

section Transitions

inductive RiskLabel
  | insufficientEvidence | high | moderate | low
deriving DecidableEq, Repr

/-- What `transition_risk` shows; an optional text that is none is written as `NOT_AVAILABLE`. -/
structure TransitionRisk where
  transitionCount : ℕ
  transitionIdCounts : List (String × ℕ)
  transitionInDays : ℕ
  transitionOutDays : ℕ
  stableDays : ℕ
  windowClosedTrades : ℕ
  windowNetPnl : Option String
  windowCosts : Option String
  windowTurnover : Option String
  riskLabel : RiskLabel
  mae : Option String := none
  timeToDerisk : Option String := none
deriving DecidableEq, Repr

/-- The fields of a trade that the identity binds: `_TRANSITION_TRADE_KEYS`. -/
structure TradeEvidence where
  entryFillPrice : Value
  exitTime : Value
  fees : Value
  funding : Value
  netPnl : Value
  quantity : Value
  slippageCost : Value
deriving DecidableEq, Repr, Countable

def tradeEvidence (trade : TradeRow) : TradeEvidence :=
  ⟨trade.entryFillPrice, trade.exitTime, trade.fees, trade.funding, trade.netPnl, trade.quantity, trade.slippageCost⟩

variable {D : Type} (lang : RegimeQuality.Language D)

/-- `_optional_dec`. -/
def optionalValue (value : Value) : Except EvidenceError (Option D) :=
  if value = .null ∨ value = .string "NOT_AVAILABLE" then .ok none else do pure (some (← lang.parse value.str))

/-- `_dec`. -/
def valueOrZero (value : Value) : Except EvidenceError D := do
  pure ((← optionalValue lang value).getD lang.zero)

structure Window (D : Type) where
  trades : ℕ
  net : D
  costs : D
  turnover : D

def windowTrade (eventByDay : Dict String String) (window : Window D) (trade : TradeRow) :
    Except EvidenceError (Window D) :=
  if trade.exitTime = .null then .ok window
  else
    let day := String.ofList (trade.exitTime.str.toList.take 10)
    if eventByDay.get? day ≠ some "TRANSITION_IN" ∧ eventByDay.get? day ≠ some "TRANSITION_OUT" then .ok window
    else do
      let net ← if trade.netPnl = .null then .ok window.net else do
        pure (lang.add window.net (← valueOrZero lang trade.netPnl))
      let fees ← valueOrZero lang trade.fees
      let slippage ← valueOrZero lang trade.slippageCost
      let funding ← valueOrZero lang trade.funding
      let qty ← optionalValue lang trade.quantity
      let entry ← optionalValue lang trade.entryFillPrice
      pure
        { trades := window.trades + 1
          net
          costs := lang.add window.costs (lang.add (lang.add fees slippage) funding)
          turnover := match qty, entry with
            | some qty, some entry => lang.add window.turnover (lang.mul (lang.abs qty) entry)
            | _, _ => window.turnover }

def transitionCounts (transitions : List TransitionRow) : Dict String ℕ :=
  ((transitions.map (·.transitionId.strOr "")).filter (· ≠ "")).foldl
    (fun counts tid => counts.set tid ((counts.get? tid).getD 0 + 1)) {}

def eventByDay (dayEvents : List DayEventRow) : Dict String String :=
  (dayEvents.filter (·.asOf.truthy)).foldl (fun events e => events.set e.asOf.str (e.event.strOr "")) {}

def buildTransitionRiskProfile (transitions : List TransitionRow) (dayEvents : List DayEventRow)
    (trades : List TradeRow) (policy : BehaviourPolicy) (evidenceTrusted : Bool) :
    Except EvidenceError TransitionRisk := do
  if !evidenceTrusted then
    pure
      { transitionCount := transitions.length
        transitionIdCounts := []
        transitionInDays := 0
        transitionOutDays := 0
        stableDays := 0
        windowClosedTrades := 0
        windowNetPnl := none
        windowCosts := none
        windowTurnover := none
        riskLabel := .insufficientEvidence }
  else
    let inDays := dayEvents.countP (·.event = .string "TRANSITION_IN")
    let outDays := dayEvents.countP (·.event = .string "TRANSITION_OUT")
    let window ← trades.foldlM (windowTrade lang (eventByDay dayEvents)) ⟨0, lang.zero, lang.zero, lang.zero⟩
    let highNetFloor ← lang.parse policy.highTransitionWindowNetMax
    let riskLabel :=
      if transitions.length = 0 ∧ inDays + outDays = 0 then .insufficientEvidence
      else if policy.highTransitionCountMin ≤ transitions.length ∨ lang.lt window.net highNetFloor then .high
      else if 1 ≤ transitions.length then .moderate
      else .low
    pure
      { transitionCount := transitions.length
        transitionIdCounts := (transitionCounts transitions).entries.insertionSort fun a b => a.1 ≤ b.1
        transitionInDays := inDays
        transitionOutDays := outDays
        stableDays := dayEvents.countP (·.event = .string "STABLE_REGIME")
        windowClosedTrades := window.trades
        windowNetPnl := some (lang.text window.net)
        windowCosts := some (lang.text window.costs)
        windowTurnover := some (lang.text window.turnover)
        riskLabel }

end Transitions

section Evaluator

structure TransitionEvidence where
  dayEvents : List DayEventRow
  trades : List TradeEvidence
  transitions : List TransitionRow
deriving DecidableEq, Repr, Countable

structure BehaviourPins where
  runId : String
  qualityId : String
  classificationId : String
  classifierContentHash : String
  transitionEvidenceHash : String
  policyVersion : String
  policyContentHash : String
deriving DecidableEq, Repr, Countable

structure BehaviourDigests where
  policy : BehaviourPolicy → String
  evidence : TransitionEvidence → String
  behaviour : BehaviourPins → String

def computeTransitionEvidenceHash (digests : BehaviourDigests) (transitions : List TransitionRow)
    (dayEvents : List DayEventRow) (trades : List TradeRow) : String :=
  digests.evidence { dayEvents, trades := trades.map tradeEvidence, transitions }

def computeBehaviourId (digests : BehaviourDigests) (pins : BehaviourPins) : String := "bh_" ++ digests.behaviour pins

structure BehaviourArguments where
  regimeLabels : Option RegimeLabels := none
  trades : Option (List TradeRow) := none
  policyVersion : String := "1.0"

structure RegimeBehaviourRow where
  cellId : String
  trend : String
  vol : String
  labels : List BehaviourLabel
  mainWeakness : Option BehaviourLabel
  mainStrength : Option BehaviourLabel
  zeroActivity : Bool
  closedTrades : ℕ
  netPnl : String
deriving DecidableEq, Repr

/-- `behavior_profile.json`. -/
structure BehaviourProfile where
  schemaVersion : String := "1.0"
  behaviourId : String
  experimentId : String
  runId : String
  qualityId : String
  classificationId : String
  classifierContentHash : String
  datasetId : String
  datasetContentHash : String
  transitionEvidenceHash : String
  policyVersion : String
  policyContentHash : String
  llmSource : Bool := false
  decisionBinding : Bool := false
  autoPromotion : Bool := false
  evidenceStatus : EvidenceStatus
  evidenceTrusted : Bool
  regimes : List RegimeBehaviourRow
  transitionRisk : TransitionRisk
  mainWeakness : Option BehaviourLabel
  mainStrength : Option BehaviourLabel
deriving DecidableEq, Repr

structure BehaviourProfileResult where
  artifact : BehaviourProfile
  behaviourId : String
deriving DecidableEq, Repr

def requirePin (value key label : String) : Except EvidenceError Unit :=
  if value = "" then .error (.behaviourProfileError (label ++ " missing required pin '" ++ key ++ "'")) else .ok ()

def matchPin (key left : String) (right : Value) : Except EvidenceError Unit := do
  let right := right.strOr ""
  requirePin left key "regime_metrics"
  requirePin right key "regime_labels"
  if left ≠ right then
    .error (.behaviourProfileError ("pin mismatch on " ++ key ++ ": metrics='" ++ left ++ "' labels='" ++ right ++ "'"))
  else pure ()

def checkLabelPins (metrics : RegimeMetrics) : Option RegimeLabels → Except EvidenceError Unit
  | none => .ok ()
  | some labels => do
    matchPin "dataset_id" metrics.datasetId labels.datasetId
    matchPin "dataset_content_hash" metrics.datasetContentHash labels.datasetContentHash
    matchPin "classification_id" metrics.classificationId labels.classificationId
    matchPin "classifier_content_hash" metrics.classifierContentHash labels.classifierContentHash

variable {D : Type} (lang : RegimeQuality.Language D) (digests : BehaviourDigests)

def behaviourRow (policy : BehaviourPolicy) (evidenceTrusted : Bool) (row : RegimeRow) :
    Except EvidenceError RegimeBehaviourRow := do
  let labels ← deriveRegimeLabels lang row policy evidenceTrusted
  pure
    { cellId := row.cellId
      trend := row.trend
      vol := row.vol
      labels
      mainWeakness := pickMain labels policy.weaknessPriority
      mainStrength := if evidenceTrusted then pickMain labels policy.strengthPriority else none
      zeroActivity := row.zeroActivity
      closedTrades := row.closedTrades
      netPnl := row.netPnl }

def buildBehaviourProfile (metrics : RegimeMetrics) (policy : BehaviourPolicy) (regimes : List RegimeBehaviourRow)
    (transitionEvidenceHash : String) (transitionRisk : TransitionRisk) : BehaviourProfile :=
  let evidenceTrusted := decide (metrics.evidenceStatus = .ok)
  { behaviourId := computeBehaviourId digests
      { runId := metrics.runId
        qualityId := metrics.qualityId
        classificationId := metrics.classificationId
        classifierContentHash := metrics.classifierContentHash
        transitionEvidenceHash
        policyVersion := policy.version
        policyContentHash := digests.policy policy }
    experimentId := metrics.experimentId
    runId := metrics.runId
    qualityId := metrics.qualityId
    classificationId := metrics.classificationId
    classifierContentHash := metrics.classifierContentHash
    datasetId := metrics.datasetId
    datasetContentHash := metrics.datasetContentHash
    transitionEvidenceHash
    policyVersion := policy.version
    policyContentHash := digests.policy policy
    evidenceStatus := metrics.evidenceStatus
    evidenceTrusted
    regimes
    transitionRisk
    mainWeakness :=
      if evidenceTrusted then pickMain (regimes.filterMap (·.mainWeakness)) policy.weaknessPriority
      else some .insufficientEvidence
    mainStrength :=
      if evidenceTrusted then pickMain (regimes.filterMap (·.mainStrength)) policy.strengthPriority else none }

/-- The status of the evidence is a field of every metrics file, so that it is never missing. -/
def evaluateBehaviourProfile (metrics : RegimeMetrics) (arguments : BehaviourArguments) :
    Except EvidenceError BehaviourProfileResult :=
  if metrics.decisionBinding then
    .error (.behaviourProfileError "refusing decision_binding=true regime_metrics as behaviour input")
  else do
    let policy ← getBehaviourPolicy arguments.policyVersion
    requirePin metrics.runId "run_id" "regime_metrics"
    requirePin metrics.qualityId "quality_id" "regime_metrics"
    requirePin metrics.classificationId "classification_id" "regime_metrics"
    requirePin metrics.classifierContentHash "classifier_content_hash" "regime_metrics"
    requirePin metrics.datasetId "dataset_id" "regime_metrics"
    requirePin metrics.datasetContentHash "dataset_content_hash" "regime_metrics"
    checkLabelPins metrics arguments.regimeLabels
    let evidenceTrusted := decide (metrics.evidenceStatus = .ok)
    let regimes ← metrics.regimes.mapM fun row => behaviourRow lang policy evidenceTrusted row.1
    let transitions := (arguments.regimeLabels.map (·.transitions)).getD []
    let dayEvents := (arguments.regimeLabels.map (·.dayEvents)).getD []
    let trades := arguments.trades.getD []
    let transitionEvidenceHash := computeTransitionEvidenceHash digests transitions dayEvents trades
    let transitionRisk ← buildTransitionRiskProfile lang transitions dayEvents trades policy evidenceTrusted
    let artifact := buildBehaviourProfile digests metrics policy regimes transitionEvidenceHash transitionRisk
    pure { artifact, behaviourId := artifact.behaviourId }

end Evaluator

end TradingBot.Research.RegimeBehaviour
