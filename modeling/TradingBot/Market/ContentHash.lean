import TradingBot.Library.Digests
import TradingBot.Market.Models
import Mathlib.Data.List.Sort
import Mathlib.Data.Countable.Defs
import Mathlib.Data.Rat.Encodable
import Mathlib.Logic.Encodable.Basic

namespace TradingBot.Market.ContentHash

open Library Market.Models

/-- `value.normalize()`: the value rounded to the significant digits of the context. -/
def canonicalDecimal (value : Decimal) : Decimal := decimalResult value

/-- A row of the hashed payload. Its timestamps are written to the microsecond, so they are the instants. -/
structure CandleRow where
  symbol : Symbol
  timeframe : Timeframe
  openTime : Time
  closeTime : Time
  openPrice : Decimal
  high : Decimal
  low : Decimal
  close : Decimal
  volume : Decimal
  isClosed : Bool
deriving DecidableEq, Repr

def canonicalCandleRow (c : Candle) : CandleRow where
  symbol := c.symbol
  timeframe := c.timeframe
  openTime := c.openTime
  closeTime := c.closeTime
  openPrice := canonicalDecimal c.openPrice
  high := canonicalDecimal c.high
  low := canonicalDecimal c.low
  close := canonicalDecimal c.close
  volume := canonicalDecimal c.volume
  isClosed := c.isClosed

def timeframeRank : Timeframe → ℕ
  | .daily => 0
  | .monthly => 1
  | .weekly => 2

def symbolRank : Symbol → ℕ
  | .BTC => 0
  | .ETH => 1
  | .SOL => 2

def rowLe (a b : CandleRow) : Prop :=
  symbolRank a.symbol < symbolRank b.symbol ∨ symbolRank a.symbol = symbolRank b.symbol ∧
    (timeframeRank a.timeframe < timeframeRank b.timeframe ∨
      timeframeRank a.timeframe = timeframeRank b.timeframe ∧ a.openTime ≤ b.openTime)

instance (a b : CandleRow) : Decidable (rowLe a b) := by
  unfold rowLe
  infer_instance

def sortCandleRows (rows : List CandleRow) : List CandleRow := rows.insertionSort rowLe

/-- The hash of the payload; the digest of the serialized rows is the parameter. -/
def hashNormalizedCandles (sha256 : List CandleRow → String) (candles : List Candle) : String :=
  sha256 (sortCandleRows (candles.map canonicalCandleRow))

/-- A candle whose numbers fit the significant digits, so that its row keeps them. -/
structure Exact {σ : Type} (c : CandleOf σ) : Prop where
  openPrice : canonicalDecimal c.openPrice = c.openPrice
  high : canonicalDecimal c.high = c.high
  low : canonicalDecimal c.low = c.low
  close : canonicalDecimal c.close = c.close
  volume : canonicalDecimal c.volume = c.volume

instance {σ : Type} (c : CandleOf σ) : Decidable (Exact c) :=
  decidable_of_iff (∀ p ∈ [c.openPrice, c.high, c.low, c.close, c.volume], canonicalDecimal p = p) (by
    simp only [List.forall_mem_cons, List.not_mem_nil, false_implies, implies_true, and_true]
    constructor
    · rintro ⟨ho, hh, hl, hc, hv⟩
      exact ⟨ho, hh, hl, hc, hv⟩
    · rintro ⟨ho, hh, hl, hc, hv⟩
      exact ⟨ho, hh, hl, hc, hv⟩)

def CandleRow.candle (r : CandleRow) : Candle :=
  ⟨r.symbol, r.timeframe, r.openTime, r.closeTime, r.openPrice, r.high, r.low, r.close, r.volume, r.isClosed⟩

theorem candle_canonicalCandleRow {c : Candle} (h : Exact c) : (canonicalCandleRow c).candle = c := by
  simp only [canonicalCandleRow, CandleRow.candle, h.openPrice, h.high, h.low, h.close, h.volume]

instance : Countable CandleRow := by
  refine Function.Injective.countable (f := fun r : CandleRow => (symbolRank r.symbol,
    timeframeRank r.timeframe, r.openTime, r.closeTime, r.openPrice, r.high, r.low, r.close, r.volume,
    r.isClosed)) ?_
  rintro ⟨s, tf, _⟩ ⟨s', tf', _⟩ h
  simp only [Prod.mk.injEq] at h
  obtain ⟨hs, htf, rfl, rfl, rfl, rfl, rfl, rfl, rfl, rfl⟩ := h
  obtain rfl : s = s' := by
    cases s <;> cases s' <;> first | rfl | exact absurd hs (by decide)
  obtain rfl : tf = tf' := by
    cases tf <;> cases tf' <;> first | rfl | exact absurd htf (by decide)
  rfl

theorem exists_injective_digest : ∃ sha256 : List CandleRow → String, Function.Injective sha256 :=
  Digests.exists_injective_text (List CandleRow)

theorem perm_of_hash_eq {sha256 : List CandleRow → String} (hsha : Function.Injective sha256)
    {candles candles' : List Candle} (hexact : ∀ c ∈ candles, Exact c) (hexact' : ∀ c ∈ candles', Exact c)
    (h : hashNormalizedCandles sha256 candles = hashNormalizedCandles sha256 candles') :
    candles.Perm candles' := by
  have hsorted := hsha h
  have hrows : (candles.map canonicalCandleRow).Perm (candles'.map canonicalCandleRow) := by
    have hleft := List.perm_insertionSort rowLe (candles.map canonicalCandleRow)
    have hright := List.perm_insertionSort rowLe (candles'.map canonicalCandleRow)
    unfold sortCandleRows at hsorted
    rw [hsorted] at hleft
    exact hleft.symm.trans hright
  have hback : ∀ l : List Candle, (∀ c ∈ l, Exact c) →
      (l.map canonicalCandleRow).map CandleRow.candle = l := by
    intro l hl
    rw [List.map_map]
    exact (List.map_congr_left fun c hc => candle_canonicalCandleRow (hl c hc)).trans (List.map_id' l)
  rw [← hback candles hexact, ← hback candles' hexact']
  exact hrows.map CandleRow.candle

theorem eq_of_perm_of_rising {σ : Type} {l l' : List (CandleOf σ)} (h : l.Perm l')
    (hl : l.Pairwise fun a b => a.openTime < b.openTime) (hl' : l'.Pairwise fun a b => a.openTime < b.openTime) :
    l = l' :=
  h.eq_of_pairwise (fun a _ _ _ hab hba => absurd (hab.trans hba) (lt_irrefl a.openTime)) hl hl'

end TradingBot.Market.ContentHash
