import TradingBot.Paper.Repository

namespace TradingBot.Paper.AccountingVerification

open Market.Models Library.Transaction Paper.Models Paper.Repository

structure ReconstructedWallet where
  cash : Decimal
  totalFees : Decimal := 0
  totalSlippage : Decimal := 0
  totalRealizedPnl : Decimal := 0
  openMargin : Decimal := 0
  totalFunding : Decimal := 0
deriving DecidableEq, Repr

/-- The wallet is rebuilt from at most this many positions. -/
def positionLimit : ℕ := 10000

def netPnl (f : PaperFill) (p : PaperPosition) : Decimal :=
  (f.fillPrice - p.averageEntryPrice) * f.quantity - f.fee

/-- The turn of one fill in the rebuilding loop. -/
def reconstructFill (positions : List PaperPosition) (w : ReconstructedWallet) (f : PaperFill) :
    ReconstructedWallet :=
  let charged := { w with totalFees := w.totalFees + f.fee, totalSlippage := w.totalSlippage + f.slippage }
  match f.fillKind with
  | .entry => { charged with cash := charged.cash - f.fee }
  | .exit =>
    match f.positionId.bind fun id => positions.find? (·.positionId = id) with
    | none => charged
    | some p => { charged with
        cash := charged.cash + netPnl f p
        totalRealizedPnl := charged.totalRealizedPnl + netPnl f p }

def reconstructWallet (initialCash : Decimal) : Query ReconstructedWallet := do
  let positions ← listPositions positionLimit
  let fills ← listAllFills
  let totals := fills.foldl (reconstructFill positions) { cash := initialCash }
  let fundingEvents ← listFundingEvents
  let totalFunding := (fundingEvents.map (·.amount)).sum
  let openPositions ← getOpenPositions
  pure { totals with
         cash := totals.cash + totalFunding
         openMargin := (openPositions.map (·.marginReserved)).sum
         totalFunding }

/-- The differences the verification reports, with the values it prints. -/
inductive AccountingIssue
  | walletMissing
  | cashMismatch (db reconstructed : Decimal)
  | feesMismatch (db reconstructed : Decimal)
  | slippageMismatch (db reconstructed : Decimal)
  | realizedPnlMismatch (db reconstructed : Decimal)
  | fundingMismatch (db reconstructed : Decimal)
  | fundingWithoutEvents (db : Decimal)
  | duplicateFundingKey (key : String)
  | exitWithoutPosition (fillId : Id)
  | duplicateExit (positionId : Id)
  | closedReservesMargin (symbol : Symbol)
  | closedNonPositiveQuantity (symbol : Symbol)
  | closedWithoutExit (positionId : Id)
  | positionRealizedMismatch (positionId : Id) (db fromExitFill : Decimal)
  | openWithoutMargin (symbol : Symbol)
deriving DecidableEq, Repr

def issueIf (condition : Bool) (issue : AccountingIssue) : List AccountingIssue :=
  if condition then [issue] else []

def walletIssues (wallet : PaperWalletState) (r : ReconstructedWallet) : List AccountingIssue :=
  issueIf (wallet.cash ≠ r.cash) (.cashMismatch wallet.cash r.cash) ++
  issueIf (wallet.totalFees ≠ r.totalFees) (.feesMismatch wallet.totalFees r.totalFees) ++
  issueIf (wallet.totalSlippage ≠ r.totalSlippage)
    (.slippageMismatch wallet.totalSlippage r.totalSlippage) ++
  issueIf (wallet.totalRealizedPnl ≠ r.totalRealizedPnl)
    (.realizedPnlMismatch wallet.totalRealizedPnl r.totalRealizedPnl) ++
  issueIf (wallet.totalFunding ≠ r.totalFunding)
    (.fundingMismatch wallet.totalFunding r.totalFunding) ++
  issueIf (wallet.totalFunding ≠ 0 ∧ r.totalFunding = 0) (.fundingWithoutEvents wallet.totalFunding)

/-- The keys that occur more than once, each at its first occurrence. -/
def repeated {κ : Type} [DecidableEq κ] (keys : List κ) : List κ :=
  keys.eraseDups.filter fun k => 1 < keys.count k

def exitFills (fills : List PaperFill) : List PaperFill := fills.filter (·.fillKind = .exit)

def exitIssues (fills : List PaperFill) : List AccountingIssue :=
  ((exitFills fills).filter (·.positionId.isNone)).map (fun f => .exitWithoutPosition f.fillId) ++
  (repeated ((exitFills fills).filterMap (·.positionId))).map .duplicateExit

def positionIssues (fills : List PaperFill) (p : PaperPosition) : List AccountingIssue :=
  if p.status = .closed then
    let exitFill := (exitFills fills).find? (·.positionId = some p.positionId)
    issueIf (p.marginReserved ≠ 0) (.closedReservesMargin p.symbol) ++
    issueIf (p.quantity ≤ 0) (.closedNonPositiveQuantity p.symbol) ++
    issueIf (((exitFills fills).filterMap (·.positionId)).count p.positionId = 0)
      (.closedWithoutExit p.positionId) ++
    match exitFill with
    | none => []
    | some f => issueIf (p.realizedPnl ≠ netPnl f p)
        (.positionRealizedMismatch p.positionId p.realizedPnl (netPnl f p))
  else issueIf (p.marginReserved ≤ 0) (.openWithoutMargin p.symbol)

def verifyAccountingIndependent (initialCash : Decimal) : Query (List AccountingIssue) := do
  match ← getWallet with
  | none => pure [.walletMissing]
  | some wallet => do
    let reconstructed ← reconstructWallet initialCash
    let fundingEvents ← listFundingEvents
    let fills ← listAllFills
    let positions ← listPositions positionLimit
    pure (walletIssues wallet reconstructed ++
      (repeated (fundingEvents.map (·.deterministicKey))).map .duplicateFundingKey ++
      exitIssues fills ++ positions.flatMap (positionIssues fills))

end TradingBot.Paper.AccountingVerification
