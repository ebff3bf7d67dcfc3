import TradingBot.Library.DecimalTexts
import TradingBot.Market.CalendarFacts

namespace TradingBot.Market.CanonicalTexts

open Library.DecimalNumbers Library.DecimalTexts Market.Models Market.Timeframes Market.CalendarFacts

section Decimals

def defaultContext : Context where
  precision := 28
  etiny := -1000026
  emax := 999999
  precision_pos := by decide

def decimalText (value : Dec) : String := String.ofList (scientific value)

def readDecimal (text : String) : Option Dec := readDec text.toList

def canonicalDecimal (value : Dec) : Except String String :=
  match defaultContext.normalize value with
  | none => .error "[<class 'decimal.Overflow'>]"
  | some normalized => .ok (String.ofList (plain normalized))

variable {d : Dec} {text : String}

theorem readDecimal_decimalText (d : Dec) : readDecimal (decimalText d) = some d := by
  rw [readDecimal, decimalText, String.toList_ofList, readDec_scientific]

theorem canonicalDecimal_eq_ok : canonicalDecimal d = .ok text ↔
    ∃ n, defaultContext.normalize d = some n ∧ String.ofList (plain n) = text := by
  unfold canonicalDecimal
  cases defaultContext.normalize d with
  | none => simp
  | some n => simp

theorem read_canonicalDecimal {n : Dec} (h : defaultContext.normalize d = some n) :
    readDecimal (String.ofList (plain n)) = some (spelled n) ∧
      canonicalDecimal (spelled n) = .ok (String.ofList (plain n)) := by
  constructor
  · rw [readDecimal, String.toList_ofList, readDec_plain]
  · exact canonicalDecimal_eq_ok.mpr ⟨n, normalize_read h, rfl⟩

theorem canonicalDecimal_eq_iff {d' : Dec} {text' : String} (h : canonicalDecimal d = .ok text)
    (h' : canonicalDecimal d' = .ok text') :
    text = text' ↔ defaultContext.normalize d = defaultContext.normalize d' := by
  obtain ⟨n, hn, rfl⟩ := canonicalDecimal_eq_ok.mp h
  obtain ⟨n', hn', rfl⟩ := canonicalDecimal_eq_ok.mp h'
  rw [hn, hn', Option.some.injEq]
  constructor
  · intro htext
    exact plain_inj hn hn' (String.ofList_injective htext)
  · rintro rfl
    rfl

end Decimals

section Timestamps

def padded (k n : ℕ) : List Char := List.replicate (k - width n) '0' ++ digits n

def InYears (t : Time) : Prop := -719162 ≤ dayNumber t ∧ dayNumber t < 2932897

instance (t : Time) : Decidable (InYears t) := inferInstanceAs (Decidable (_ ∧ _))

def timestampChars (t : Time) : List Char :=
  let date := civilDate (dayNumber t)
  padded 4 date.year.toNat ++ '-' :: (padded 2 date.month.toNat ++ '-' :: (padded 2 date.dayOfMonth.toNat ++ 'T' ::
    (padded 2 (timeOfDay t / (3600 * second)).toNat ++ ':' :: (padded 2 (timeOfDay t / (60 * second) % 60).toNat ++ ':' ::
      (padded 2 (timeOfDay t / second % 60).toNat ++ '.' :: (padded 6 (timeOfDay t % second).toNat ++ ['Z']))))))

/-- `strftime("%Y-%m-%dT%H:%M:%S.%fZ")` of an instant in UTC. -/
def canonicalTimestamp (t : Time) : String := String.ofList (timestampChars t)

/-- A number of so many digits, and the text after the character that follows it. -/
def readField (k : ℕ) (text : List Char) : Option (ℕ × List Char) :=
  (readDigits (text.take k)).map fun n => (n, text.drop (k + 1))

def readTimestampFields (text : List Char) : Option Time := do
  let (year, text) ← readField 4 text
  let (month, text) ← readField 2 text
  let (dayOfMonth, text) ← readField 2 text
  let (hour, text) ← readField 2 text
  let (minute, text) ← readField 2 text
  let (sec, text) ← readField 2 text
  let (micro, _) ← readField 6 text
  pure (day * (firstOfMonth year month + dayOfMonth - 1) + hour * (3600 * second) + minute * (60 * second) +
    sec * second + micro)

def readTimestamp (text : String) : Option Time :=
  (readTimestampFields text.toList).filter fun t => InYears t ∧ canonicalTimestamp t = text

variable {k n : ℕ}

theorem length_padded (hn : n < 10 ^ k) (hk : 0 < k) : (padded k n).length = k := by
  have hwidth := (width_le_iff hk).mpr hn
  simp only [padded, List.length_append, List.length_replicate]
  unfold width at *
  omega

theorem readField_padded (hn : n < 10 ^ k) (hk : 0 < k) (c : Char) (rest : List Char) :
    readField k (padded k n ++ c :: rest) = some (n, rest) := by
  have hlength := length_padded hn hk
  have htake : (padded k n ++ c :: rest).take k = padded k n := by
    rw [List.take_append_of_le_length (by omega), List.take_of_length_le (by omega)]
  have hdrop : (padded k n ++ c :: rest).drop (k + 1) = rest := by
    rw [List.drop_append, List.drop_of_length_le (by omega), hlength, Nat.add_sub_cancel_left]
    rfl
  have hread : readDigits (padded k n) = some n := by
    have hdigits : readDigits (List.replicate (k - width n) '0' ++ digits n) = some _ :=
      readDigits_append (fun c hc => isDigit_of_mem_zeros hc) (fun c hc => isDigit_of_mem_digits hc)
        (List.append_ne_nil_of_right_ne_nil _ (digits_ne_nil n))
    rw [ofDigitChars_zeros] at hdigits
    exact hdigits
  rw [readField, htake, hdrop, hread, Option.map_some]

theorem InYears.year {t : Time} (h : InYears t) :
    1 ≤ (civilDate (dayNumber t)).year ∧ (civilDate (dayNumber t)).year ≤ 9999 := by
  obtain ⟨hfirst, hlast⟩ := h
  obtain ⟨hle, hlt, _⟩ := monthOf_bounds (dayNumber t)
  obtain ⟨hmonth, hmonth'⟩ := civilDate_month (dayNumber t)
  have hstart : monthStart 10 = -719162 := by decide
  have hend : monthStart 119998 = 2932897 := by decide
  have hlow := strictMono_monthStart.lt_iff_lt.mp ((hstart.le.trans hfirst).trans_lt hlt)
  have hhigh := strictMono_monthStart.lt_iff_lt.mp (hle.trans_lt (hlast.trans_eq hend.symm))
  unfold monthOf at *
  omega

theorem readTimestampFields_timestampChars {t : Time} (h : InYears t) :
    readTimestampFields (timestampChars t) = some t := by
  obtain ⟨hyear, hyear'⟩ := h.year
  obtain ⟨hmonth, hmonth'⟩ := civilDate_month (dayNumber t)
  obtain ⟨hday, hday'⟩ := dayOfMonth_bounds (dayNumber t)
  have hdate := dayNumber_date (dayNumber t)
  have htime : day * dayNumber t + timeOfDay t = t := Int.mul_ediv_add_emod t day
  have hlow : 0 ≤ timeOfDay t := Int.emod_nonneg t (by decide)
  have hhigh : timeOfDay t < 86400 * 1000000 := Int.emod_lt_of_pos t (by decide)
  obtain ⟨s, hs⟩ : ∃ s : ℤ, timeOfDay t = s := ⟨_, rfl⟩
  obtain ⟨n, hn⟩ : ∃ n : ℤ, dayNumber t = n := ⟨_, rfl⟩
  rw [hs] at hlow hhigh htime
  have hhigh : s < 86400000000 := hhigh
  rw [hn] at hyear hyear' hmonth hmonth' hday hday' hdate htime
  simp only [readTimestampFields, timestampChars, hs, hn]
  generalize civilDate n = date at *
  have hy : date.year.toNat < 10 ^ 4 := by omega
  have hm : date.month.toNat < 10 ^ 2 := by omega
  have hd : date.dayOfMonth.toNat < 10 ^ 2 := by omega
  have hhour : (s / (3600 * second)).toNat < 10 ^ 2 := by
    unfold second
    omega
  have hminute : (s / (60 * second) % 60).toNat < 10 ^ 2 := by omega
  have hsecond : (s / second % 60).toNat < 10 ^ 2 := by omega
  have hmicro : (s % second).toNat < 10 ^ 6 := by
    unfold second
    omega
  have hdigits : s / (3600 * second) * (3600 * second) + s / (60 * second) % 60 * (60 * second) +
      s / second % 60 * second + s % second = s := by
    unfold second
    omega
  simp only [readField_padded hy (by decide), readField_padded hm (by decide), readField_padded hd (by decide),
    readField_padded hhour (by decide), readField_padded hminute (by decide), readField_padded hsecond (by decide),
    readField_padded hmicro (by decide), Option.bind_eq_bind, Option.bind_some, Option.pure_def, Option.some.injEq]
  have hdivHour : 0 ≤ s / (3600 * second) := Int.ediv_nonneg hlow (by decide)
  have hmodMinute : 0 ≤ s / (60 * second) % 60 := Int.emod_nonneg _ (by decide)
  have hmodSecond : 0 ≤ s / second % 60 := Int.emod_nonneg _ (by decide)
  have hmodMicro : 0 ≤ s % second := Int.emod_nonneg _ (by decide)
  rw [Int.toNat_of_nonneg (by omega), Int.toNat_of_nonneg (by omega), Int.toNat_of_nonneg (by omega),
    Int.toNat_of_nonneg hdivHour, Int.toNat_of_nonneg hmodMinute, Int.toNat_of_nonneg hmodSecond,
    Int.toNat_of_nonneg hmodMicro, hdate]
  linarith

theorem readTimestamp_canonicalTimestamp {t : Time} (h : InYears t) :
    readTimestamp (canonicalTimestamp t) = some t := by
  rw [readTimestamp, canonicalTimestamp, String.toList_ofList, readTimestampFields_timestampChars h]
  simp [h, canonicalTimestamp]

end Timestamps

end TradingBot.Market.CanonicalTexts
