import TradingBot.Market.BundleFacts
import TradingBot.Market.CalendarFacts
import TradingBot.Market.Ingest

namespace TradingBot.Market.IngestFacts

open Market.Models Market.Repository Market.Timeframes Market.Quality Market.Provider Market.Ingest
open Market.BundleFacts Market.CalendarFacts Library Exceptions

section Upserts

variable {r : CandleRepository} {c : Candle} {key : CandleKey} {t : Time}

theorem key_of_get? (h : r.get? key = some c) : c.key = key := by
  simpa using List.find?_some h

theorem mem_of_get? (h : r.get? key = some c) : c ∈ r.store := List.mem_of_find?_eq_some h

theorem get?_of_mem (h : c ∈ r.store) : r.get? c.key = some c := Keyed.find?_key r.keys h

theorem get?_add (h : r.get? c.key = none) (key : CandleKey) :
    (r.add c h).get? key = if key = c.key then some c else r.get? key := by
  by_cases hkey : key = c.key
  · subst hkey
    have hnone : r.store.find? (fun d => decide (d.key = c.key)) = none := h
    simp [CandleRepository.get?, CandleRepository.add, List.find?_append, hnone]
  · have hne : c.key ≠ key := Ne.symm hkey
    simp [CandleRepository.get?, CandleRepository.add, List.find?_append, hkey, hne]

theorem get?_replace {existing : Candle} (h : r.get? c.key = some existing) (key : CandleKey) :
    (r.replace c).get? key = if key = c.key then some c else r.get? key := by
  have hstore : ∀ d : Candle, (if d.key = c.key then c else d).key = d.key := by
    intro d
    by_cases hd : d.key = c.key <;> simp [hd]
  by_cases hkey : key = c.key
  · subst hkey
    rw [if_pos rfl]
    have hmem : c ∈ (r.replace c).store := by
      refine List.mem_map.mpr ⟨existing, mem_of_get? h, ?_⟩
      rw [if_pos (key_of_get? h)]
    exact get?_of_mem hmem
  · rw [if_neg hkey]
    simp only [CandleRepository.get?, CandleRepository.replace, List.find?_map]
    have hfind : (r.store.find? ((fun d => decide (d.key = key)) ∘ fun d => if d.key = c.key then c else d)) =
        r.store.find? fun d => decide (d.key = key) := by
      congr 1
      funext d
      simp [hstore]
    rw [hfind]
    cases hd : r.store.find? fun d => decide (d.key = key) with
    | none => rfl
    | some d =>
      have hne : d.key ≠ c.key := fun he => hkey ((key_of_get? hd).symm.trans he)
      simp [hne]

/-- What is stored under a key after an upsert of a live candle. -/
def liveValue (existing : Option Candle) (c : Candle) (t : Time) : Candle :=
  match existing with
  | none => c
  | some e =>
    if e = c then e
    else if !e.isClosed && c.isClosed then c
    else if !isCandleClosed e.closeTime t then c
    else e

theorem upsertLive_of_some {existing : Candle} (h : r.get? c.key = some existing) :
    r.upsertLive c t =
      if existing = c then r
      else if !existing.isClosed && c.isClosed then r.replace c
      else if !isCandleClosed existing.closeTime t then r.replace c
      else r.conflict existing c := by
  unfold CandleRepository.upsertLive
  split
  · rename_i hnone
    rw [hnone] at h
    cases h
  · rename_i e he
    rw [he] at h
    cases h
    rfl

theorem get?_upsertLive (r : CandleRepository) (c : Candle) (t : Time) (key : CandleKey) :
    (r.upsertLive c t).get? key =
      if key = c.key then some (liveValue (r.get? c.key) c t) else r.get? key := by
  cases h : r.get? c.key with
  | none =>
    have hadd : r.upsertLive c t = r.add c h := by
      unfold CandleRepository.upsertLive
      split
      · rfl
      · rename_i e he
        rw [he] at h
        cases h
    rw [hadd, get?_add]
    rfl
  | some existing =>
    have hkept : r.get? key = if key = c.key then some existing else r.get? key := by
      by_cases hkey : key = c.key
      · rw [if_pos hkey, hkey, h]
      · rw [if_neg hkey]
    rw [upsertLive_of_some h]
    unfold liveValue
    by_cases heq : existing = c
    · simp only [heq, if_true]
      rw [heq] at hkept
      exact hkept
    by_cases hfinal : (!existing.isClosed && c.isClosed) = true
    · simp only [heq, hfinal, if_false, if_true]
      exact get?_replace h key
    by_cases hopen : (!isCandleClosed existing.closeTime t) = true
    · simp only [heq, hfinal, hopen, if_false, if_true]
      exact get?_replace h key
    · simp only [heq, hfinal, hopen, if_false]
      exact hkept

theorem conflicts_upsertLive (r : CandleRepository) (c : Candle) (t : Time) :
    (r.upsertLive c t).conflicts = r.conflicts ++ (upsertLiveReturn r c t).2.toList := by
  unfold upsertLiveReturn
  cases h : r.get? c.key with
  | none =>
    unfold CandleRepository.upsertLive
    split
    · simp [CandleRepository.add]
    · rename_i e he
      rw [he] at h
      cases h
  | some existing =>
    rw [upsertLive_of_some h]
    simp only
    split_ifs <;> simp [CandleRepository.conflict, CandleRepository.replace]

theorem get?_upsert (r : CandleRepository) (c : Candle) (key : CandleKey) :
    (r.upsert c).get? key = if key = c.key then some ((r.get? c.key).getD c) else r.get? key := by
  unfold CandleRepository.upsert
  split
  · rename_i h
    rw [get?_add, h]
    rfl
  · rename_i existing h
    have hkept : r.get? key = if key = c.key then some existing else r.get? key := by
      by_cases hkey : key = c.key
      · rw [if_pos hkey, hkey, h]
      · rw [if_neg hkey]
    rw [h]
    by_cases heq : existing = c
    · rw [if_pos heq]
      exact hkept
    · rw [if_neg heq]
      exact hkept

theorem conflicts_upsert (r : CandleRepository) (c : Candle) :
    (r.upsert c).conflicts = r.conflicts ++ (upsertReturn r c).2.toList := by
  unfold CandleRepository.upsert upsertReturn
  split
  · rename_i h
    simp [h, CandleRepository.add]
  · rename_i existing h
    rw [h]
    simp only
    split_ifs <;> simp [CandleRepository.conflict]

end Upserts

section Canonical

def canonicalOpen : Timeframe → Time → Time
  | .daily, t => dailyOpen t
  | .weekly, t => weeklyOpenContaining t
  | .monthly, t => monthlyOpen (civilDate (dayNumber t)).year (civilDate (dayNumber t)).month

def canonicalClose : Timeframe → Time → Time
  | .daily, openTime => dailyClose openTime
  | .weekly, openTime => openTime + 6 * day + 86399 * second
  | .monthly, openTime => firstOfNextMonth openTime - second

theorem weekday_weekStart (t : Time) (n : ℤ) : weekday (weeklyOpenContaining t + n * (7 * day)) = 0 := by
  unfold weeklyOpenContaining weekday dailyOpen dayNumber day second
  have h : ∀ m : ℤ, m * (86400 * 1000000) / (86400 * 1000000) = m := fun m =>
    Int.mul_ediv_cancel m (by omega)
  have hweek : ∀ m k : ℤ, m * (86400 * 1000000) - k * (86400 * 1000000) + n * (7 * (86400 * 1000000)) =
      (m - k + 7 * n) * (86400 * 1000000) := by
    intro m k
    ring
  rw [hweek, h, h]
  omega

theorem weeklyClose_weekStart (t : Time) (n : ℤ) :
    weeklyClose (weeklyOpenContaining t + n * (7 * day)) =
      .ok (weeklyOpenContaining t + n * (7 * day) + 6 * day + 86399 * second) := by
  unfold weeklyClose
  rw [if_neg (not_not.mpr (weekday_weekStart t n))]

theorem weeklyClose_canonicalOpen (t : Time) :
    weeklyClose (weeklyOpenContaining t) = .ok (canonicalClose .weekly (weeklyOpenContaining t)) := by
  simpa [canonicalClose] using weeklyClose_weekStart t 0

theorem monthlyClose_canonicalOpen (t : Time) :
    monthlyClose (canonicalOpen .monthly t) = .ok (canonicalClose .monthly (canonicalOpen .monthly t)) := by
  obtain ⟨h0, h1⟩ := civilDate_month (dayNumber t)
  have hday : 0 < day := by decide
  unfold monthlyClose canonicalOpen canonicalClose monthlyOpen
  have hnumber : ∀ n, dayNumber (day * n) = n := fun n => Int.mul_ediv_cancel_left n hday.ne'
  have htime : ∀ n, timeOfDay (day * n) = 0 := fun n => Int.mul_emod_right day n
  rw [if_neg]
  rw [hnumber, htime, dayOfMonth_firstOfMonth h0 h1]
  simp [second]

theorem expectedCloseTime_canonicalOpen (timeframe : Timeframe) (t : Time) :
    expectedCloseTime (canonicalOpen timeframe t) timeframe =
      .ok (canonicalClose timeframe (canonicalOpen timeframe t)) := by
  cases timeframe with
  | daily => rfl
  | weekly => exact weeklyClose_canonicalOpen t
  | monthly => exact monthlyClose_canonicalOpen t

theorem canonicalTimeBounds_eq (raw : RawCandle) :
    canonicalTimeBounds raw = .ok (canonicalOpen raw.timeframe raw.openTime,
      canonicalClose raw.timeframe (canonicalOpen raw.timeframe raw.openTime)) := by
  unfold canonicalTimeBounds
  cases htf : raw.timeframe with
  | daily => rfl
  | weekly =>
    simp only [canonicalOpen]
    rw [weeklyClose_canonicalOpen]
    rfl
  | monthly =>
    have hclose := monthlyClose_canonicalOpen raw.openTime
    simp only [canonicalOpen] at hclose ⊢
    rw [hclose]
    rfl

end Canonical

section Normalization

def symbolOf (raw : RawCandle) : Symbol :=
  (resolveInternalSymbol raw.providerSymbol).toOption.getD .BTC

theorem resolveInternalSymbol_eq (raw : RawCandle) :
    resolveInternalSymbol raw.providerSymbol = .ok (symbolOf raw) := by
  have hknown := raw.known
  unfold symbolOf
  cases h : resolveInternalSymbol raw.providerSymbol with
  | error exc =>
    rw [h] at hknown
    cases hknown
  | ok symbol => rfl

def candleOf (raw : RawCandle) (t : Time) : Candle where
  symbol := symbolOf raw
  timeframe := raw.timeframe
  openTime := canonicalOpen raw.timeframe raw.openTime
  closeTime := canonicalClose raw.timeframe (canonicalOpen raw.timeframe raw.openTime)
  openPrice := raw.openPrice
  high := raw.high
  low := raw.low
  close := raw.close
  volume := raw.volume
  isClosed := raw.isClosed &&
    isCandleClosed (canonicalClose raw.timeframe (canonicalOpen raw.timeframe raw.openTime)) t

theorem normalizeRawCandle_eq (raw : RawCandle) (t : Time) :
    normalizeRawCandle raw t = .ok (candleOf raw t) := by
  unfold normalizeRawCandle
  rw [resolveInternalSymbol_eq, canonicalTimeBounds_eq]
  rfl

def keyOf (raw : RawCandle) : CandleKey :=
  ⟨symbolOf raw, raw.timeframe, canonicalOpen raw.timeframe raw.openTime⟩

@[simp] theorem key_candleOf (raw : RawCandle) (t : Time) : (candleOf raw t).key = keyOf raw := rfl

def Admissible (raw : RawCandle) : Prop :=
  0 ≤ raw.volume ∧ 0 < raw.openPrice ∧ 0 < raw.high ∧ 0 < raw.low ∧ 0 < raw.close ∧
  raw.openPrice ≤ raw.high ∧ raw.close ≤ raw.high ∧ raw.low ≤ raw.openPrice ∧ raw.low ≤ raw.close ∧
  canonicalOpen raw.timeframe raw.openTime <
    canonicalClose raw.timeframe (canonicalOpen raw.timeframe raw.openTime)

instance : DecidablePred Admissible := fun raw => by
  unfold Admissible
  infer_instance

theorem validateCandleStructure_candleOf (raw : RawCandle) (t : Time) :
    ∃ codes, validateCandleStructure (candleOf raw t) = .ok codes ∧
      ((validateRawCandle raw = [] ∧ codes = []) ↔ Admissible raw) := by
  have hduration : isValidTimeframeDuration (candleOf raw t).openTime (candleOf raw t).closeTime
      (candleOf raw t).timeframe = .ok true := by
    simp only [isValidTimeframeDuration, candleOf, expectedCloseTime_canonicalOpen]
    simp [bind, Except.bind, pure, Except.pure]
  unfold validateCandleStructure
  rw [hduration]
  refine ⟨_, rfl, ?_⟩
  have hnil : ∀ l : List MarketDataReasonCode, l.eraseDups = [] ↔ l = [] :=
    fun l => ⟨Keyed.eraseDups_eq_nil, fun h => by rw [h]; rfl⟩
  rw [hnil]
  simp only [validateRawCandle, List.append_eq_nil_iff, codeIf_eq_nil, decide_eq_false_iff_not, not_or, not_le,
    not_lt]
  unfold Admissible
  constructor
  · rintro ⟨hvolume, ⟨⟨⟨⟨⟨ho, hh, hl, hc⟩, _⟩, hho, hhc, _⟩, hlo, hlc, _⟩, htime⟩, _⟩
    exact ⟨hvolume, ho, hh, hl, hc, hho, hhc, hlo, hlc, htime⟩
  · rintro ⟨hvolume, ho, hh, hl, hc, hho, hhc, hlo, hlc, htime⟩
    have hlh := hlo.trans hho
    exact ⟨hvolume, ⟨⟨⟨⟨⟨ho, hh, hl, hc⟩, hvolume⟩, hho, hhc, hlh⟩, hlo, hlc, hlh⟩, htime⟩, rfl⟩

end Normalization

section Ingests

def ingested (t : Time) (r : CandleRepository) (raw : RawCandle) : CandleRepository :=
  if Admissible raw then r.upsertLive (candleOf raw t) t else r

theorem conflicts_ingested (t : Time) (r : CandleRepository) (raw : RawCandle) :
    (ingested t r raw).conflicts =
      if Admissible raw then r.conflicts ++ (upsertLiveReturn r (candleOf raw t) t).2.toList
      else r.conflicts := by
  unfold ingested
  split_ifs
  · exact conflicts_upsertLive _ _ _
  · rfl

theorem key_of_upsertLiveReturn {r : CandleRepository} {c : Candle} {t : Time} {conflict : CandleConflict}
    (h : conflict ∈ (upsertLiveReturn r c t).2.toList) : conflict.key = c.key := by
  unfold upsertLiveReturn at h
  cases hget : r.get? c.key with
  | none =>
    rw [hget] at h
    cases h
  | some existing =>
    rw [hget] at h
    simp only at h
    split_ifs at h <;> simp_all

theorem ingestLiveCandle_eq (t : Time) (g : Ingestion) (raw : RawCandle) :
    ∃ result, ingestLiveCandle t g raw = .ok ⟨ingested t g.repository raw, result⟩ := by
  obtain ⟨codes, hcodes, hadmissible⟩ := validateCandleStructure_candleOf raw t
  unfold ingestLiveCandle ingested
  by_cases hraw : validateRawCandle raw = []
  · rw [if_neg (not_not.mpr hraw), normalizeRawCandle_eq]
    simp only [bind, Except.bind, hcodes]
    by_cases hnil : codes = []
    · rw [if_neg (not_not.mpr hnil), if_pos (hadmissible.mp ⟨hraw, hnil⟩)]
      exact ⟨_, rfl⟩
    · rw [if_pos hnil, if_neg fun h => hnil (hadmissible.mpr h).2]
      exact ⟨_, rfl⟩
  · rw [if_pos hraw, if_neg fun h => hraw (hadmissible.mpr h).1]
    exact ⟨_, rfl⟩

theorem ingestLiveRaw_eq (r : CandleRepository) (raws : List RawCandle) (t : Time) :
    ∃ result, ingestLiveRaw r raws t = .ok ⟨raws.foldl (ingested t) r, result⟩ := by
  have hfold : ∀ g : Ingestion, ∃ result, raws.foldlM (ingestLiveCandle t) g =
      .ok ⟨raws.foldl (ingested t) g.repository, result⟩ := by
    induction raws with
    | nil => exact fun g => ⟨g.result, rfl⟩
    | cons raw raws ih =>
      intro g
      obtain ⟨result, hstep⟩ := ingestLiveCandle_eq t g raw
      obtain ⟨final, hrest⟩ := ih ⟨ingested t g.repository raw, result⟩
      refine ⟨final, ?_⟩
      rw [List.foldlM_cons, hstep]
      exact hrest
  obtain ⟨result, hresult⟩ := hfold { repository := r }
  refine ⟨result.finish, ?_⟩
  unfold ingestLiveRaw
  rw [hresult]
  rfl

end Ingests

end TradingBot.Market.IngestFacts
