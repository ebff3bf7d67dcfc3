import TradingBot.Library.Outcome
import TradingBot.Market.CanonicalTexts
import TradingBot.Market.HistoricalImport

namespace TradingBot.Market.CanonicalPayload

open Library.DecimalNumbers Library.Outcome Market.Models Market.CanonicalTexts
open Market.HistoricalImport (timeframeValue)

section Rows

/-- A timestamp with or without a zone; of one with a zone, the instant. -/
inductive Stamp
  | naive (t : Time)
  | aware (t : Time)
deriving DecidableEq, Repr

structure SpelledCandle where
  symbol : Symbol
  timeframe : Timeframe
  openTime : Stamp
  closeTime : Stamp
  openPrice : Dec
  high : Dec
  low : Dec
  close : Dec
  volume : Dec
  isClosed : Bool

def SpelledCandle.key (c : SpelledCandle) : Symbol × Timeframe × Stamp := (c.symbol, c.timeframe, c.openTime)

def SpelledCandle.decimals (c : SpelledCandle) : List Dec := [c.openPrice, c.high, c.low, c.close, c.volume]

/-- `canonical_timestamp`. -/
def stampText : Stamp → Except String String
  | .naive _ => .error "timestamp must be timezone-aware UTC"
  | .aware t => if InYears t then .ok (canonicalTimestamp t) else .error "date value out of range"

structure PayloadRow where
  symbol : String
  timeframe : String
  openTime : String
  closeTime : String
  openPrice : String
  high : String
  low : String
  close : String
  volume : String
  isClosed : String
deriving DecidableEq, Repr

def canonicalCandleRow (c : SpelledCandle) : Except String PayloadRow := do
  let openTime ← stampText c.openTime
  let closeTime ← stampText c.closeTime
  let openPrice ← canonicalDecimal c.openPrice
  let high ← canonicalDecimal c.high
  let low ← canonicalDecimal c.low
  let close ← canonicalDecimal c.close
  let volume ← canonicalDecimal c.volume
  pure
    { symbol := c.symbol.value, timeframe := timeframeValue c.timeframe, openTime, closeTime, openPrice, high, low,
      close, volume, isClosed := if c.isClosed then "true" else "false" }

def PayloadRow.sortKey (r : PayloadRow) : String ×ₗ (String ×ₗ String) :=
  toLex (r.symbol, toLex (r.timeframe, r.openTime))

def sortCandleRows (rows : List PayloadRow) : List PayloadRow := rows.insertionSort fun a b => a.sortKey ≤ b.sortKey

/-- The rows that `hash_normalized_candles` hashes as JSON. -/
def payload (candles : List SpelledCandle) : Except String (List PayloadRow) :=
  (candles.mapM canonicalCandleRow).map sortCandleRows

end Rows

section Agreement

structure Related (R : Dec → Dec → Prop) (a b : SpelledCandle) : Prop where
  symbol : a.symbol = b.symbol
  timeframe : a.timeframe = b.timeframe
  openTime : a.openTime = b.openTime
  closeTime : a.closeTime = b.closeTime
  decimals : List.Forall₂ R a.decimals b.decimals
  isClosed : a.isClosed = b.isClosed

def Agree (R : Dec → Dec → Prop) (l l' : List SpelledCandle) : Prop := ∃ m, l.Perm m ∧ List.Forall₂ (Related R) m l'

def SameValue (a b : Dec) : Prop := a.value = b.value

/-- The numbers are equal once they are rounded to 28 digits; of zeros, the signs are. -/
def SameRounded (a b : Dec) : Prop := defaultContext.normalize a = defaultContext.normalize b

/-- The payload can be written. -/
structure Encodable (c : SpelledCandle) : Prop where
  openTime : ∃ t, c.openTime = .aware t ∧ InYears t
  closeTime : ∃ t, c.closeTime = .aware t ∧ InYears t
  decimals : ∀ d ∈ c.decimals, (defaultContext.normalize d).isSome = true

/-- The payloads exist, and they are equal exactly if the candles are the same up to their order and the spelling of their
numbers. -/
def Complete (l l' : List SpelledCandle) : Prop :=
  ∃ p p', payload l = .ok p ∧ payload l' = .ok p' ∧ (p = p' ↔ Agree SameValue l l')

end Agreement

section RowFacts

variable {a b c : SpelledCandle} {r r' : PayloadRow} {s s' : Stamp} {text text' : String}

theorem stampText_eq_ok : stampText s = .ok text ↔ ∃ t, s = .aware t ∧ InYears t ∧ canonicalTimestamp t = text := by
  cases s with
  | naive t => simp [stampText]
  | aware t =>
    rw [stampText]
    by_cases h : InYears t
    · simp [h]
    · simp [h]

theorem stampText_inj (h : stampText s = .ok text) (h' : stampText s' = .ok text) : s = s' := by
  obtain ⟨t, rfl, ht, htext⟩ := stampText_eq_ok.mp h
  obtain ⟨t', rfl, ht', htext'⟩ := stampText_eq_ok.mp h'
  have hread := readTimestamp_canonicalTimestamp ht
  rw [htext, ← htext', readTimestamp_canonicalTimestamp ht'] at hread
  rw [Option.some.inj hread]

structure RowOf (c : SpelledCandle) (r : PayloadRow) : Prop where
  symbol : c.symbol.value = r.symbol
  timeframe : timeframeValue c.timeframe = r.timeframe
  openTime : stampText c.openTime = .ok r.openTime
  closeTime : stampText c.closeTime = .ok r.closeTime
  openPrice : canonicalDecimal c.openPrice = .ok r.openPrice
  high : canonicalDecimal c.high = .ok r.high
  low : canonicalDecimal c.low = .ok r.low
  close : canonicalDecimal c.close = .ok r.close
  volume : canonicalDecimal c.volume = .ok r.volume
  isClosed : (if c.isClosed then "true" else "false") = r.isClosed

theorem canonicalCandleRow_eq_ok : canonicalCandleRow c = .ok r ↔ RowOf c r := by
  constructor
  · intro h
    obtain ⟨_, hopenTime, h⟩ := except_bind_eq_ok.mp h
    obtain ⟨_, hcloseTime, h⟩ := except_bind_eq_ok.mp h
    obtain ⟨_, hopen, h⟩ := except_bind_eq_ok.mp h
    obtain ⟨_, hhigh, h⟩ := except_bind_eq_ok.mp h
    obtain ⟨_, hlow, h⟩ := except_bind_eq_ok.mp h
    obtain ⟨_, hclose, h⟩ := except_bind_eq_ok.mp h
    obtain ⟨_, hvolume, h⟩ := except_bind_eq_ok.mp h
    cases h
    exact ⟨rfl, rfl, hopenTime, hcloseTime, hopen, hhigh, hlow, hclose, hvolume, rfl⟩
  · intro h
    obtain ⟨symbol, timeframe, openTime, closeTime, openPrice, high, low, close, volume, isClosed⟩ := r
    obtain ⟨rfl, rfl, hopenTime, hcloseTime, hopen, hhigh, hlow, hclose, hvolume, rfl⟩ := h
    rw [canonicalCandleRow, hopenTime, hcloseTime, hopen, hhigh, hlow, hclose, hvolume]
    rfl

theorem stampText_isOk : (∃ text, stampText s = .ok text) ↔ ∃ t, s = .aware t ∧ InYears t := by
  simp only [stampText_eq_ok]
  constructor
  · rintro ⟨_, t, hs, ht, _⟩
    exact ⟨t, hs, ht⟩
  · rintro ⟨t, hs, ht⟩
    exact ⟨_, t, hs, ht, rfl⟩

theorem canonicalDecimal_isOk {d : Dec} :
    (∃ text, canonicalDecimal d = .ok text) ↔ (defaultContext.normalize d).isSome = true := by
  rw [Option.isSome_iff_exists]
  constructor
  · rintro ⟨_, h⟩
    obtain ⟨n, hn, _⟩ := canonicalDecimal_eq_ok.mp h
    exact ⟨n, hn⟩
  · rintro ⟨n, hn⟩
    exact ⟨_, canonicalDecimal_eq_ok.mpr ⟨n, hn, rfl⟩⟩

theorem encodable_of_row (h : RowOf c r) : Encodable c where
  openTime := stampText_isOk.mp ⟨_, h.openTime⟩
  closeTime := stampText_isOk.mp ⟨_, h.closeTime⟩
  decimals := by
    simp only [SpelledCandle.decimals, List.forall_mem_cons, ← canonicalDecimal_isOk]
    exact ⟨⟨_, h.openPrice⟩, ⟨_, h.high⟩, ⟨_, h.low⟩, ⟨_, h.close⟩, ⟨_, h.volume⟩, by simp⟩

theorem canonicalCandleRow_isOk : (∃ r, canonicalCandleRow c = .ok r) ↔ Encodable c := by
  constructor
  · rintro ⟨r, hr⟩
    exact encodable_of_row (canonicalCandleRow_eq_ok.mp hr)
  · rintro ⟨hopenTime, hcloseTime, hdecimals⟩
    simp only [SpelledCandle.decimals, List.forall_mem_cons, ← canonicalDecimal_isOk] at hdecimals
    obtain ⟨openTime, hopenTime⟩ := stampText_isOk.mpr hopenTime
    obtain ⟨closeTime, hcloseTime⟩ := stampText_isOk.mpr hcloseTime
    obtain ⟨⟨openPrice, hopen⟩, ⟨high, hhigh⟩, ⟨low, hlow⟩, ⟨close, hclose⟩, ⟨volume, hvolume⟩, _⟩ := hdecimals
    exact ⟨⟨_, _, openTime, closeTime, openPrice, high, low, close, volume, _⟩, canonicalCandleRow_eq_ok.mpr
      ⟨rfl, rfl, hopenTime, hcloseTime, hopen, hhigh, hlow, hclose, hvolume, rfl⟩⟩

theorem timeframeValue_injective : Function.Injective timeframeValue := by
  intro a b h
  cases a <;> cases b <;> first | rfl | exact absurd h (by decide)

theorem row_eq_iff (h : RowOf a r) (h' : RowOf b r') : r = r' ↔ Related SameRounded a b := by
  constructor
  · rintro rfl
    refine ⟨Symbol.value_injective (h.symbol.trans h'.symbol.symm),
      timeframeValue_injective (h.timeframe.trans h'.timeframe.symm), stampText_inj h.openTime h'.openTime,
      stampText_inj h.closeTime h'.closeTime, ?_, ?_⟩
    · simp only [SpelledCandle.decimals, List.forall₂_cons, List.forall₂_nil_left_iff, and_true]
      exact ⟨(canonicalDecimal_eq_iff h.openPrice h'.openPrice).mp rfl, (canonicalDecimal_eq_iff h.high h'.high).mp rfl,
        (canonicalDecimal_eq_iff h.low h'.low).mp rfl, (canonicalDecimal_eq_iff h.close h'.close).mp rfl,
        (canonicalDecimal_eq_iff h.volume h'.volume).mp rfl⟩
    · have hclosed := h.isClosed.trans h'.isClosed.symm
      cases ha : a.isClosed <;> cases hb : b.isClosed <;> simp_all
  · rintro ⟨hsymbol, htimeframe, hopenTime, hcloseTime, hdecimals, hclosed⟩
    simp only [SpelledCandle.decimals, List.forall₂_cons, List.forall₂_nil_left_iff, and_true] at hdecimals
    obtain ⟨hopen, hhigh, hlow, hclose, hvolume⟩ := hdecimals
    have hfirst := h.openTime
    have hlast := h.closeTime
    rw [hopenTime, h'.openTime] at hfirst
    rw [hcloseTime, h'.closeTime] at hlast
    have hopen := (canonicalDecimal_eq_iff h.openPrice h'.openPrice).mpr hopen
    have hhigh := (canonicalDecimal_eq_iff h.high h'.high).mpr hhigh
    have hlow := (canonicalDecimal_eq_iff h.low h'.low).mpr hlow
    have hclose := (canonicalDecimal_eq_iff h.close h'.close).mpr hclose
    have hvolume := (canonicalDecimal_eq_iff h.volume h'.volume).mpr hvolume
    have hsymbolText := h.symbol
    have htimeframeText := h.timeframe
    have hclosedText := h.isClosed
    rw [hsymbol, h'.symbol] at hsymbolText
    rw [htimeframe, h'.timeframe] at htimeframeText
    rw [hclosed, h'.isClosed] at hclosedText
    obtain ⟨⟩ := r
    obtain ⟨⟩ := r'
    simp_all

end RowFacts

section Lists

variable {R Q : Dec → Dec → Prop} {l l' m : List SpelledCandle} {rows rows' : List PayloadRow}

theorem Related.key {a b : SpelledCandle} (h : Related R a b) : a.key = b.key := by
  rw [SpelledCandle.key, SpelledCandle.key, h.symbol, h.timeframe, h.openTime]

theorem rows_eq_iff (h : List.Forall₂ RowOf l rows) (h' : List.Forall₂ RowOf l' rows') :
    rows = rows' ↔ List.Forall₂ (Related SameRounded) l l' := by
  induction h generalizing l' rows' with
  | nil =>
    cases h' with
    | nil => simp
    | cons _ _ => simp
  | cons hrow _ ih =>
    cases h' with
    | nil => simp
    | cons hrow' hrest' => rw [List.cons.injEq, List.forall₂_cons, row_eq_iff hrow hrow', ih hrest']

theorem mapM_canonicalCandleRow : l.mapM canonicalCandleRow = .ok rows ↔ List.Forall₂ RowOf l rows := by
  simp only [mapM_eq_ok_iff, canonicalCandleRow_eq_ok]

theorem rows_perm_iff (h : List.Forall₂ RowOf l rows) (h' : List.Forall₂ RowOf l' rows') :
    rows.Perm rows' ↔ Agree SameRounded l l' := by
  constructor
  · intro hperm
    obtain ⟨m, hm, hperm'⟩ := List.perm_comp_forall₂ hperm.symm h.flip
    exact ⟨m, hperm'.symm, (rows_eq_iff hm.flip h').mp rfl⟩
  · rintro ⟨m, hperm, hm⟩
    obtain ⟨rowsOfM, hrows, hperm'⟩ := List.perm_comp_forall₂ hperm.symm h
    rw [(rows_eq_iff hrows h').mpr hm] at hperm'
    exact hperm'.symm

theorem row_eq_of_sortKey {a b : SpelledCandle} {r r' : PayloadRow} (hkeys : (l.map SpelledCandle.key).Nodup)
    (ha : a ∈ l) (hb : b ∈ l) (hr : canonicalCandleRow a = .ok r) (hr' : canonicalCandleRow b = .ok r')
    (h : r.sortKey = r'.sortKey) : r = r' := by
  have hrow := canonicalCandleRow_eq_ok.mp hr
  have hrow' := canonicalCandleRow_eq_ok.mp hr'
  simp only [PayloadRow.sortKey, EmbeddingLike.apply_eq_iff_eq, Prod.mk.injEq] at h
  obtain ⟨hsymbol, htimeframe, hopenTime⟩ := h
  rw [← hrow.symbol, ← hrow'.symbol] at hsymbol
  rw [← hrow.timeframe, ← hrow'.timeframe] at htimeframe
  have hopen := hrow.openTime
  rw [hopenTime] at hopen
  have hkey : a.key = b.key := by
    rw [SpelledCandle.key, SpelledCandle.key, Symbol.value_injective hsymbol, timeframeValue_injective htimeframe,
      stampText_inj hopen hrow'.openTime]
  rw [List.inj_on_of_nodup_map hkeys ha hb hkey, hr'] at hr
  exact (Except.ok.inj hr).symm

theorem sortCandleRows_eq_iff (hkeys : (l.map SpelledCandle.key).Nodup) (h : l.mapM canonicalCandleRow = .ok rows) :
    sortCandleRows rows = sortCandleRows rows' ↔ rows.Perm rows' := by
  have hsort := List.perm_insertionSort (fun a b : PayloadRow => a.sortKey ≤ b.sortKey)
  constructor
  · intro heq
    have hsame := hsort rows'
    rw [← sortCandleRows, ← heq] at hsame
    exact (hsort rows).symm.trans hsame
  · intro hperm
    have hsorted := (hsort rows).trans (hperm.trans (hsort rows').symm)
    have htotal : Std.Total (fun a b : PayloadRow => a.sortKey ≤ b.sortKey) := ⟨fun a b => le_total _ _⟩
    have htrans : IsTrans PayloadRow (fun a b => a.sortKey ≤ b.sortKey) := ⟨fun _ _ _ => le_trans⟩
    apply List.Perm.eq_of_pairwise _ (List.pairwise_insertionSort _ rows) (List.pairwise_insertionSort _ rows') hsorted
    intro r r' hr hr' hle hle'
    obtain ⟨a, ha, harow⟩ := mapM_ok_mem h ((List.mem_insertionSort _).mp hr)
    obtain ⟨b, hb, hbrow⟩ := mapM_ok_mem h (hperm.mem_iff.mpr ((List.mem_insertionSort _).mp hr'))
    exact row_eq_of_sortKey hkeys ha hb harow hbrow (le_antisymm hle hle')

theorem payload_isOk : (∃ p, payload l = .ok p) ↔ ∀ c ∈ l, Encodable c := by
  constructor
  · rintro ⟨p, hp⟩ c hc
    cases hrows : l.mapM canonicalCandleRow with
    | error e => simp [payload, hrows, Except.map] at hp
    | ok rows =>
      obtain ⟨r, _, hr⟩ := mapM_mem_ok hrows hc
      exact canonicalCandleRow_isOk.mp ⟨r, hr⟩
  · intro h
    obtain ⟨rows, hrows⟩ := returns_mapM fun c hc => canonicalCandleRow_isOk.mpr (h c hc)
    exact ⟨sortCandleRows rows, by simp [payload, hrows, Except.map]⟩

theorem payload_eq_iff {p p' : List PayloadRow} (hkeys : (l.map SpelledCandle.key).Nodup) (h : payload l = .ok p)
    (h' : payload l' = .ok p') : p = p' ↔ Agree SameRounded l l' := by
  cases hrows : l.mapM canonicalCandleRow with
  | error e => simp [payload, hrows, Except.map] at h
  | ok rows =>
    cases hrows' : l'.mapM canonicalCandleRow with
    | error e => simp [payload, hrows', Except.map] at h'
    | ok rows' =>
      simp only [payload, hrows, Except.map, Except.ok.injEq] at h
      simp only [payload, hrows', Except.map, Except.ok.injEq] at h'
      rw [← h, ← h', sortCandleRows_eq_iff hkeys hrows, rows_perm_iff (mapM_canonicalCandleRow.mp hrows)
        (mapM_canonicalCandleRow.mp hrows')]

def Matched (R : Dec → Dec → Prop) (l l' : List SpelledCandle) : Prop :=
  ∀ a ∈ l, ∀ b ∈ l', a.key = b.key → List.Forall₂ R a.decimals b.decimals

theorem Agree.matched (hkeys : (l.map SpelledCandle.key).Nodup) (h : Agree R l l') : Matched R l l' := by
  obtain ⟨m, hperm, hm⟩ := h
  intro a ha b hb hkey
  obtain ⟨i, hi, hib⟩ := List.mem_iff_getElem.mp hb
  have hlength := hm.length_eq
  have hrelated := List.forall₂_iff_get.mp hm |>.2 i (by omega) hi
  simp only [List.get_eq_getElem, hib] at hrelated
  have hmem : m[i] ∈ l := hperm.mem_iff.mpr (List.getElem_mem _)
  rw [List.inj_on_of_nodup_map hkeys ha hmem (hkey.trans hrelated.key.symm)]
  exact hrelated.decimals

theorem Agree.mono (h : Agree R l l') (hmatched : Matched Q l l') : Agree Q l l' := by
  obtain ⟨m, hperm, hm⟩ := h
  refine ⟨m, hperm, ?_⟩
  have hpairs : Matched Q m l' := fun a ha => hmatched a (hperm.mem_iff.mpr ha)
  clear hperm hmatched
  induction hm with
  | nil => exact .nil
  | cons hfirst _ ih =>
    have hdecimals := hpairs _ List.mem_cons_self _ List.mem_cons_self hfirst.key
    have hrest := ih fun a ha b hb => hpairs a (List.mem_cons_of_mem _ ha) b (List.mem_cons_of_mem _ hb)
    exact .cons { hfirst with decimals := hdecimals } hrest

end Lists

section Completeness

variable {x y : Dec} {l l' : List SpelledCandle}

def SameZero (x y : Dec) : Prop := x.value = 0 → x.negative = y.negative

theorem sameRounded_iff (h : SameValue x y) : SameRounded x y ↔ SameZero x y := by
  by_cases hzero : x.value = 0
  · have hzero' : y.value = 0 := h.symm.trans hzero
    have hx : x = ⟨x.negative, 0, x.exponent⟩ := by rw [← Dec.value_eq_zero_iff.mp hzero]
    have hy : y = ⟨y.negative, 0, y.exponent⟩ := by rw [← Dec.value_eq_zero_iff.mp hzero']
    rw [SameRounded, hx, hy, Context.normalize_zero, Context.normalize_zero]
    simp [SameZero, Dec.value]
  · simp [SameRounded, SameZero, hzero, Context.normalize_congr h hzero]

theorem matched_sameRounded_iff (h : Matched SameValue l l') : Matched SameRounded l l' ↔ Matched SameZero l l' := by
  have hdecimals : ∀ {k k' : List Dec}, List.Forall₂ SameValue k k' →
      (List.Forall₂ SameRounded k k' ↔ List.Forall₂ SameZero k k') := by
    intro k k' hk
    induction hk with
    | nil => simp
    | cons hfirst _ ih => rw [List.forall₂_cons, List.forall₂_cons, sameRounded_iff hfirst, ih]
  constructor
  · exact fun hrounded a ha b hb hkey => (hdecimals (h a ha b hb hkey)).mp (hrounded a ha b hb hkey)
  · exact fun hzeros a ha b hb hkey => (hdecimals (h a ha b hb hkey)).mpr (hzeros a ha b hb hkey)

/-- The payload tells the candles apart up to their order and the spelling of their numbers exactly if it can be written,
numbers that differ still differ at 28 digits, and no zero has another sign. -/
theorem complete_iff (hkeys : (l.map SpelledCandle.key).Nodup) :
    Complete l l' ↔ (∀ c ∈ l, Encodable c) ∧ (∀ c ∈ l', Encodable c) ∧
      (Agree SameRounded l l' → Matched SameValue l l') ∧ (Agree SameValue l l' → Matched SameZero l l') := by
  constructor
  · rintro ⟨p, p', hp, hp', hiff⟩
    rw [payload_eq_iff hkeys hp hp'] at hiff
    refine ⟨payload_isOk.mp ⟨p, hp⟩, payload_isOk.mp ⟨p', hp'⟩, fun h => (hiff.mp h).matched hkeys, fun h => ?_⟩
    exact (matched_sameRounded_iff (h.matched hkeys)).mp ((hiff.mpr h).matched hkeys)
  · rintro ⟨hencodable, hencodable', hvalues, hzeros⟩
    obtain ⟨p, hp⟩ := payload_isOk.mpr hencodable
    obtain ⟨p', hp'⟩ := payload_isOk.mpr hencodable'
    refine ⟨p, p', hp, hp', ?_⟩
    rw [payload_eq_iff hkeys hp hp']
    exact ⟨fun h => h.mono (hvalues h), fun h => h.mono ((matched_sameRounded_iff (h.matched hkeys)).mpr (hzeros h))⟩

def dayCandle (close volume : Dec) : SpelledCandle where
  symbol := .BTC
  timeframe := .daily
  openTime := .aware 0
  closeTime := .aware 86400000000
  openPrice := ⟨false, 1, 0⟩
  high := ⟨false, 2, 0⟩
  low := ⟨false, 1, 0⟩
  close := close
  volume := volume
  isClosed := true

/-- A price may have zeros at its end. -/
theorem complete_iff_trailing :
    Complete [dayCandle ⟨false, 15, -1⟩ ⟨false, 0, 0⟩] [dayCandle ⟨false, 150, -2⟩ ⟨false, 0, 0⟩] := by
  apply (complete_iff (by decide)).mpr
  have hencodable : ∀ close, (defaultContext.normalize close).isSome = true →
      ∀ c ∈ [dayCandle close ⟨false, 0, 0⟩], Encodable c := by
    intro close hclose c hc
    rw [List.mem_singleton.mp hc]
    refine ⟨⟨_, rfl, by decide⟩, ⟨_, rfl, by decide⟩, ?_⟩
    simp only [SpelledCandle.decimals, dayCandle, List.forall_mem_cons, List.not_mem_nil, false_imp_iff, implies_true,
      and_true]
    exact ⟨by decide, by decide, by decide, hclose, by decide⟩
  refine ⟨hencodable _ (by decide), hencodable _ (by decide), fun _ => ?_, fun _ => ?_⟩
  · intro a ha b hb _
    rw [List.mem_singleton.mp ha, List.mem_singleton.mp hb]
    simp only [SpelledCandle.decimals, dayCandle, List.forall₂_cons, SameValue, Dec.value]
    norm_num
  · intro a ha b hb _
    rw [List.mem_singleton.mp ha, List.mem_singleton.mp hb]
    simp [SpelledCandle.decimals, dayCandle, SameZero]

/-- Closes of 1 and of 1 and a digit at the twenty-eighth place after the point have one payload. -/
theorem not_complete_rounded :
    ¬ Complete [dayCandle ⟨false, 1, 0⟩ ⟨false, 0, 0⟩] [dayCandle ⟨false, 10 ^ 28 + 1, -28⟩ ⟨false, 0, 0⟩] := by
  rintro ⟨p, p', hp, hp', hiff⟩
  have hsame : payload [dayCandle ⟨false, 1, 0⟩ ⟨false, 0, 0⟩] =
      payload [dayCandle ⟨false, 10 ^ 28 + 1, -28⟩ ⟨false, 0, 0⟩] := by decide +kernel
  rw [hp, hp'] at hsame
  have hmatched := (hiff.mp (Except.ok.inj hsame)).matched (by decide) _ List.mem_cons_self _ List.mem_cons_self rfl
  simp only [SpelledCandle.decimals, dayCandle, List.forall₂_cons, SameValue, Dec.value] at hmatched
  norm_num at hmatched

end Completeness

end TradingBot.Market.CanonicalPayload
