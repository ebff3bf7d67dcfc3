import TradingBot.Market.IngestFacts

namespace TradingBot.Market.ClosedCandles

open Market.Models Market.Repository Market.Timeframes Market.Provider Market.Ingest Market.IngestFacts

section Writes

/-- A call of `upsert` or of `upsert_live`, with the time at which its candle is evaluated. -/
inductive Write
  | historical (candle : Candle) (evaluationTime : Time)
  | live (candle : Candle) (evaluationTime : Time)
deriving DecidableEq, Repr

namespace Write

def candle : Write → Candle
  | historical c _ => c
  | live c _ => c

def evaluationTime : Write → Time
  | historical _ t => t
  | live _ t => t

def run (r : CandleRepository) : Write → CandleRepository
  | historical c _ => r.upsert c
  | live c t => r.upsertLive c t

def Normalized (w : Write) : Prop := w.candle.isClosed = true → isCandleClosed w.candle.closeTime w.evaluationTime = true

instance (w : Write) : Decidable w.Normalized := by
  unfold Normalized
  infer_instance

end Write

def runWrites (r : CandleRepository) (ws : List Write) : CandleRepository := ws.foldl Write.run r

def finalizations (key : CandleKey) : CandleRepository → List Write → ℕ
  | _, [] => 0
  | r, w :: ws =>
    (if (r.get? key).any (!·.isClosed) && ((w.run r).get? key).any (·.isClosed) then 1 else 0) +
      finalizations key (w.run r) ws

end Writes

section Steps

variable {r : CandleRepository} {w : Write} {ws : List Write} {key : CandleKey} {c : Candle}

def Sealed (r : CandleRepository) (ws : List Write) : Prop :=
  ∀ key c, r.get? key = some c → c.isClosed = true → ∀ w ∈ ws, isCandleClosed c.closeTime w.evaluationTime = true

theorem sealed_empty (ws : List Write) : Sealed {} ws := fun _ _ h => by cases h

theorem get?_run (w : Write) (key : CandleKey) (h : (w.run r).get? key = some c) :
    r.get? key = some c ∨ c = w.candle := by
  cases w with
  | historical d t =>
    rw [Write.run, get?_upsert] at h
    split_ifs at h with hkey
    · subst hkey
      cases hstored : r.get? d.key with
      | none =>
        rw [hstored] at h
        exact .inr (Option.some.inj h).symm
      | some existing =>
        rw [hstored] at h
        exact .inl h
    · exact .inl h
  | live d t =>
    rw [Write.run, get?_upsertLive] at h
    split_ifs at h with hkey
    · subst hkey
      cases hstored : r.get? d.key with
      | none =>
        rw [hstored] at h
        exact .inr (Option.some.inj h).symm
      | some existing =>
        rw [hstored, Option.some.injEq] at h
        simp only [liveValue] at h
        split_ifs at h
        · exact .inl (congrArg some h)
        · exact .inr h.symm
        · exact .inr h.symm
        · exact .inl (congrArg some h)
    · exact .inl h

theorem sealed_run (h : Sealed r (w :: ws)) (hnormal : w.Normalized)
    (hlater : ∀ w' ∈ ws, w.evaluationTime ≤ w'.evaluationTime) : Sealed (w.run r) ws := by
  intro key c hc hclosed w' hw'
  rcases get?_run w key hc with hbefore | rfl
  · exact h key c hbefore hclosed w' (List.mem_cons_of_mem w hw')
  · have hclose := hnormal hclosed
    simp only [isCandleClosed, decide_eq_true_eq] at hclose ⊢
    exact hclose.trans (hlater w' hw')

theorem run_conflict (h : Sealed r (w :: ws)) (hc : r.get? w.candle.key = some c) (hclosed : c.isClosed = true)
    (hne : w.candle ≠ c) : w.run r = r.conflict c w.candle := by
  have hother : c ≠ w.candle := Ne.symm hne
  cases w with
  | historical d t =>
    simp only [Write.candle] at hc hother
    simp only [Write.run, CandleRepository.upsert]
    split
    · rename_i hnone
      rw [hnone] at hc
      cases hc
    · rename_i existing hexisting
      rw [hexisting] at hc
      cases hc
      rw [if_neg hother]
      rfl
  | live d t =>
    have hpast : isCandleClosed c.closeTime t = true := h _ c hc hclosed _ List.mem_cons_self
    simp only [Write.candle] at hc hother
    simp only [Write.run]
    rw [upsertLive_of_some hc, if_neg hother, if_neg (by simp [hclosed]), if_neg (by simp [hpast])]
    rfl

theorem get?_conflict (r : CandleRepository) (c d : Candle) (key : CandleKey) :
    (r.conflict c d).get? key = r.get? key := rfl

theorem get?_run_same (hc : r.get? key = some c) (hsame : w.candle.key = key → w.candle = c) :
    (w.run r).get? key = some c := by
  by_cases hkey : w.candle.key = key
  · have hcandle := hsame hkey
    subst hkey
    cases w with
    | historical d t =>
      simp only [Write.run, Write.candle] at hc hcandle ⊢
      rw [get?_upsert, if_pos rfl, hc, Option.getD_some]
    | live d t =>
      simp only [Write.run, Write.candle] at hc hcandle ⊢
      rw [get?_upsertLive, if_pos rfl, hc, hcandle]
      simp [liveValue]
  · cases w with
    | historical d t =>
      simp only [Write.run, Write.candle] at hkey ⊢
      rw [get?_upsert, if_neg (Ne.symm hkey), hc]
    | live d t =>
      simp only [Write.run, Write.candle] at hkey ⊢
      rw [get?_upsertLive, if_neg (Ne.symm hkey), hc]

theorem get?_run_closed (h : Sealed r (w :: ws)) (hc : r.get? key = some c) (hclosed : c.isClosed = true) :
    (w.run r).get? key = some c := by
  by_cases hconflict : w.candle.key = key ∧ w.candle ≠ c
  · obtain ⟨rfl, hne⟩ := hconflict
    rw [run_conflict h hc hclosed hne, get?_conflict]
    exact hc
  · refine get?_run_same hc fun hkey => ?_
    by_contra hne
    exact hconflict ⟨hkey, hne⟩

end Steps

section Runs

variable {r : CandleRepository} {w : Write} {ws before after : List Write} {key : CandleKey} {c : Candle}

structure Orderly (ws : List Write) : Prop where
  normalized : ∀ w ∈ ws, w.Normalized
  times : (ws.map Write.evaluationTime).Pairwise (· ≤ ·)

theorem Orderly.head (h : Orderly (w :: ws)) :
    w.Normalized ∧ (∀ w' ∈ ws, w.evaluationTime ≤ w'.evaluationTime) ∧ Orderly ws := by
  obtain ⟨hlater, htimes⟩ := List.pairwise_cons.mp h.times
  refine ⟨h.normalized w List.mem_cons_self, fun w' hw' => hlater _ (List.mem_map_of_mem hw'), ?_, htimes⟩
  exact fun w' hw' => h.normalized w' (List.mem_cons_of_mem w hw')

theorem sealed_runWrites (h : Orderly (before ++ after)) (hs : Sealed r (before ++ after)) :
    Sealed (runWrites r before) after := by
  induction before generalizing r with
  | nil => exact hs
  | cons w before ih =>
    obtain ⟨hnormal, hlater, hrest⟩ := h.head
    exact ih hrest (sealed_run hs hnormal hlater)

theorem get?_runWrites_closed (h : Orderly ws) (hs : Sealed r ws) (hc : r.get? key = some c)
    (hclosed : c.isClosed = true) : (runWrites r ws).get? key = some c := by
  induction ws generalizing r with
  | nil => exact hc
  | cons w ws ih =>
    obtain ⟨hnormal, hlater, hrest⟩ := h.head
    exact ih hrest (sealed_run hs hnormal hlater) (get?_run_closed hs hc hclosed)

theorem finalizations_closed (h : Orderly ws) (hs : Sealed r ws) (hc : r.get? key = some c)
    (hclosed : c.isClosed = true) : finalizations key r ws = 0 := by
  induction ws generalizing r with
  | nil => rfl
  | cons w ws ih =>
    obtain ⟨hnormal, hlater, hrest⟩ := h.head
    rw [finalizations, ih hrest (sealed_run hs hnormal hlater) (get?_run_closed hs hc hclosed), hc]
    simp [hclosed]

theorem finalizations_le_one (h : Orderly ws) (hs : Sealed r ws) : finalizations key r ws ≤ 1 := by
  induction ws generalizing r with
  | nil => exact Nat.zero_le 1
  | cons w ws ih =>
    obtain ⟨hnormal, hlater, hrest⟩ := h.head
    have hs' := sealed_run hs hnormal hlater
    rw [finalizations]
    split_ifs with hfinal
    · rw [Bool.and_eq_true, Option.any_eq_true, Option.any_eq_true] at hfinal
      obtain ⟨_, c, hc, hclosed⟩ := hfinal
      rw [finalizations_closed hrest hs' hc hclosed]
    · rw [Nat.zero_add]
      exact ih hrest hs'

/-- From an empty repository, a candle that is stored as closed never changes, every other value written for it
is a conflict and nothing else, and a provisional candle is finalized once at most. -/
theorem closed_candles_immutable (h : Orderly ws) :
    (∀ before after, ws = before ++ after → ∀ key c, (runWrites {} before).get? key = some c → c.isClosed = true →
      (runWrites {} ws).get? key = some c) ∧
    (∀ before w after, ws = before ++ w :: after → ∀ c, (runWrites {} before).get? w.candle.key = some c →
      c.isClosed = true → w.candle ≠ c →
        (runWrites {} (before ++ [w])).store = (runWrites {} before).store ∧
        (runWrites {} (before ++ [w])).conflicts =
          (runWrites {} before).conflicts ++ [⟨w.candle.key, c, w.candle⟩]) ∧
    ∀ key, finalizations key {} ws ≤ 1 := by
  refine ⟨?_, ?_, fun key => finalizations_le_one h (sealed_empty ws)⟩
  · rintro before after rfl key c hc hclosed
    have hs := sealed_runWrites h (sealed_empty _)
    have hafter : Orderly after := by
      refine ⟨fun w hw => h.normalized w (List.mem_append_right before hw), ?_⟩
      have htimes := h.times
      rw [List.map_append, List.pairwise_append] at htimes
      exact htimes.2.1
    unfold runWrites at hs hc ⊢
    rw [List.foldl_append]
    exact get?_runWrites_closed hafter hs hc hclosed
  · rintro before w after rfl c hc hclosed hne
    have hs := sealed_runWrites h (sealed_empty _)
    have hstep : runWrites {} (before ++ [w]) = (runWrites {} before).conflict c w.candle := by
      unfold runWrites at hs hc ⊢
      rw [List.foldl_append, List.foldl_cons, List.foldl_nil, run_conflict hs hc hclosed hne]
    rw [hstep]
    exact ⟨rfl, rfl⟩

end Runs

section Samples

def candleOfDay (close : Decimal) (isClosed : Bool) : Candle :=
  { symbol := .BTC, timeframe := .daily, openTime := 19744 * day, closeTime := dailyClose (19744 * day)
    openPrice := 100, high := 110, low := 90, close, volume := 1, isClosed }

/-- A day as it is seen: it opens, moves, is finalized, and is corrected when it is too late. -/
def daySeen : List Write :=
  [.live (candleOfDay 100 false) (19744 * day), .live (candleOfDay 105 false) (19744 * day + 3600 * second),
    .live (candleOfDay 104 true) (19745 * day), .live (candleOfDay 103 true) (19745 * day + second),
    .historical (candleOfDay 102 true) (19746 * day)]

theorem day_stays_final : (runWrites {} daySeen).get? (candleOfDay 104 true).key = some (candleOfDay 104 true) ∧
    finalizations (candleOfDay 104 true).key {} daySeen ≤ 1 := by
  have horderly : Orderly daySeen := ⟨by decide +kernel, by decide +kernel⟩
  obtain ⟨hkept, _, hfinal⟩ := closed_candles_immutable horderly
  refine ⟨hkept (daySeen.take 3) (daySeen.drop 3) (List.take_append_drop 3 daySeen).symm _ _ ?_ rfl, hfinal _⟩
  decide +kernel

end Samples

end TradingBot.Market.ClosedCandles
