import TradingBot.Library.DecimalNumbers

namespace TradingBot.Library.DecimalTexts

open DecimalNumbers

section Reading

def readDigits (text : List Char) : Option ℕ :=
  if text ≠ [] ∧ text.all Char.isDigit then some (Nat.ofDigitChars 10 text 0) else none

def readSign : List Char → Bool × List Char
  | '-' :: text => (true, text)
  | '+' :: text => (false, text)
  | text => (false, text)

/-- The power of ten after the letter `E`, if there is one. -/
def readExponent : List Char → Option ℤ
  | [] => some 0
  | _ :: text => (readDigits (readSign text).2).map fun n => if (readSign text).1 then -n else n

def readDec (text : List Char) : Option Dec :=
  let rest := (readSign text).2
  let mantissa := rest.takeWhile (· ≠ 'E')
  let whole := mantissa.takeWhile (· ≠ '.')
  let fraction := (mantissa.dropWhile (· ≠ '.')).tail
  match readDigits (whole ++ fraction), readExponent (rest.dropWhile (· ≠ 'E')) with
  | some c, some e => some ⟨(readSign text).1, c, e - fraction.length⟩
  | _, _ => none

end Reading

section Writing

def signText (negative : Bool) : List Char := if negative then ['-'] else []

/-- A power of ten with its sign; none is written for the power zero. -/
def exponentText (e : ℤ) : List Char :=
  if e = 0 then [] else 'E' :: (if e < 0 then '-' else '+') :: digits e.natAbs

variable (d : Dec)

/-- The digits before the point, when the point stands after the given number of digits. -/
def wholeText (place : ℤ) : List Char :=
  if place ≤ 0 then ['0'] else (digits d.coefficient).take place.toNat ++
    List.replicate (place - width d.coefficient).toNat '0'

def fractionText (place : ℤ) : List Char :=
  List.replicate (-place).toNat '0' ++ (digits d.coefficient).drop place.toNat

def pointText (fraction : List Char) : List Char := if fraction = [] then [] else '.' :: fraction

/-- The place of the point at which no power of ten is left. -/
def unitPlace : ℤ := d.exponent + width d.coefficient

def layout (place : ℤ) : List Char :=
  signText d.negative ++ (wholeText d place ++ pointText (fractionText d place)) ++ exponentText (unitPlace d - place)

/-- The text of a number: one with a power of ten above the units or with many zeros after the point has it
written out. -/
def scientific : List Char := layout d (if d.exponent ≤ 0 ∧ -6 < unitPlace d then unitPlace d else 1)

def plain : List Char := layout d (unitPlace d)

end Writing

section Digits

theorem readDigits_append {a b : List Char} (ha : ∀ c ∈ a, c.isDigit) (hb : ∀ c ∈ b, c.isDigit) (hne : a ++ b ≠ []) :
    readDigits (a ++ b) = some (Nat.ofDigitChars 10 (a ++ b) 0) := by
  apply if_pos
  refine ⟨hne, List.all_eq_true.mpr fun c hc => ?_⟩
  cases List.mem_append.mp hc with
  | inl hc => exact ha c hc
  | inr hc => exact hb c hc

theorem readDigits_digits (n : ℕ) : readDigits (digits n) = some n := by
  have hread := readDigits_append (a := digits n) (b := []) (fun c hc => isDigit_of_mem_digits hc) (by simp)
    (by simpa using digits_ne_nil n)
  rw [List.append_nil] at hread
  rw [hread, digits, Nat.ofDigitChars_ten_toDigits]

theorem ofDigitChars_zeros (k n : ℕ) : Nat.ofDigitChars 10 (List.replicate k '0' ++ digits n) 0 = n := by
  rw [Nat.ofDigitChars_append, Nat.ofDigitChars_replicate_zero, mul_zero, digits, Nat.ofDigitChars_ten_toDigits]

theorem ofDigitChars_shifted (k n : ℕ) : Nat.ofDigitChars 10 (digits n ++ List.replicate k '0') 0 = n * 10 ^ k := by
  rw [Nat.ofDigitChars_append, Nat.ofDigitChars_replicate_zero, digits, Nat.ofDigitChars_ten_toDigits, mul_comm]

theorem readSign_digits {text : List Char} (h : ∀ c ∈ text.head?, c.isDigit) : readSign text = (false, text) := by
  cases text with
  | nil => rfl
  | cons c text =>
    have hdigit := h c rfl
    unfold readSign
    split
    · simp_all
    · simp_all
    · rfl

theorem readSign_signText (negative : Bool) {text : List Char} (h : ∀ c ∈ text.head?, c.isDigit) :
    readSign (signText negative ++ text) = (negative, text) := by
  cases negative with
  | false => exact readSign_digits h
  | true => rfl

theorem readExponent_exponentText (e : ℤ) : readExponent (exponentText e) = some e := by
  unfold exponentText
  by_cases hzero : e = 0
  · simp [hzero, readExponent]
  · rw [if_neg hzero]
    by_cases hneg : e < 0
    · have hread : readExponent ('E' :: '-' :: digits e.natAbs) = some (-(e.natAbs : ℤ)) := by
        simp [readExponent, readSign, readDigits_digits]
      rw [if_pos hneg, hread]
      congr 1
      omega
    · have hread : readExponent ('E' :: '+' :: digits e.natAbs) = some (e.natAbs : ℤ) := by
        simp [readExponent, readSign, readDigits_digits]
      rw [if_neg hneg, hread]
      congr 1
      omega

end Digits

section RoundTrip

theorem digit_ne {c : Char} (h : c.isDigit) : c ≠ 'E' ∧ c ≠ '.' := by
  constructor
  all_goals
    rintro rfl
    revert h
    decide

theorem takeWhile_before {p : Char → Bool} {a b : List Char} (ha : ∀ c ∈ a, p c) (hb : ∀ c ∈ b.head?, p c = false) :
    (a ++ b).takeWhile p = a ∧ (a ++ b).dropWhile p = b := by
  rw [List.takeWhile_append_of_pos ha, List.dropWhile_append_of_pos ha]
  cases b with
  | nil => simp
  | cons c b =>
    have hc : p c = false := hb c rfl
    simp [hc]

theorem readDec_of_parts {negative : Bool} {whole fraction : List Char} {e : ℤ} (hne : whole ≠ [])
    (hwhole : ∀ c ∈ whole, c.isDigit) (hfraction : ∀ c ∈ fraction, c.isDigit) :
    readDec (signText negative ++ (whole ++ pointText fraction) ++ exponentText e) =
      some ⟨negative, Nat.ofDigitChars 10 (whole ++ fraction) 0, e - fraction.length⟩ := by
  have hmantissa : ∀ c ∈ whole ++ pointText fraction, decide (c ≠ 'E') = true := by
    intro c hc
    rw [decide_eq_true_eq]
    cases List.mem_append.mp hc with
    | inl hc => exact (digit_ne (hwhole c hc)).1
    | inr hc =>
      by_cases hnil : fraction = []
      · simp [pointText, hnil] at hc
      · rw [pointText, if_neg hnil] at hc
        cases List.mem_cons.mp hc with
        | inl hpoint => simp [hpoint]
        | inr hc => exact (digit_ne (hfraction c hc)).1
  have hexponent : ∀ c ∈ (exponentText e).head?, decide (c ≠ 'E') = false := by
    intro c hc
    by_cases hzero : e = 0
    · simp [exponentText, hzero] at hc
    · rw [exponentText, if_neg hzero] at hc
      simpa using hc.symm
  have hpoint : ∀ c ∈ (pointText fraction).head?, decide (c ≠ '.') = false := by
    intro c hc
    by_cases hnil : fraction = []
    · simp [pointText, hnil] at hc
    · rw [pointText, if_neg hnil] at hc
      simpa using hc.symm
  have hbefore : ∀ c ∈ whole, decide (c ≠ '.') = true := fun c hc => decide_eq_true (digit_ne (hwhole c hc)).2
  have hhead : ∀ c ∈ ((whole ++ pointText fraction) ++ exponentText e).head?, c.isDigit := by
    intro c hc
    cases whole with
    | nil => exact absurd rfl hne
    | cons first whole => exact hwhole c (List.mem_of_mem_head? hc)
  have hfractionText : (pointText fraction).tail = fraction := by
    by_cases hnil : fraction = []
    · simp [pointText, hnil]
    · rw [pointText, if_neg hnil, List.tail_cons]
  obtain ⟨htake, hdrop⟩ := takeWhile_before hmantissa hexponent
  obtain ⟨htake', hdrop'⟩ := takeWhile_before hbefore hpoint
  have hdigits := readDigits_append hwhole hfraction (List.append_ne_nil_of_left_ne_nil hne fraction)
  rw [List.append_assoc]
  simp only [readDec, readSign_signText negative hhead, htake, hdrop, htake', hdrop', hfractionText, hdigits,
    readExponent_exponentText]

variable (d : Dec) (place : ℤ)

theorem isDigit_of_mem_zeros {k : ℕ} {c : Char} (hc : c ∈ List.replicate k '0') : c.isDigit := by
  rw [List.eq_of_mem_replicate hc]
  decide

theorem isDigit_of_mem_wholeText {c : Char} (hc : c ∈ wholeText d place) : c.isDigit := by
  unfold wholeText at hc
  split_ifs at hc
  · rw [List.mem_singleton.mp hc]
    decide
  · cases List.mem_append.mp hc with
    | inl hc => exact isDigit_of_mem_digits (List.mem_of_mem_take hc)
    | inr hc => exact isDigit_of_mem_zeros hc

theorem isDigit_of_mem_fractionText {c : Char} (hc : c ∈ fractionText d place) : c.isDigit := by
  cases List.mem_append.mp hc with
  | inl hc => exact isDigit_of_mem_zeros hc
  | inr hc => exact isDigit_of_mem_digits (List.mem_of_mem_drop hc)

theorem wholeText_ne_nil : wholeText d place ≠ [] := by
  have hwidth := width_pos d.coefficient
  unfold wholeText
  split_ifs with hplace
  · exact List.cons_ne_nil _ _
  · apply List.ne_nil_of_length_pos
    simp only [List.length_append, List.length_take, List.length_replicate]
    unfold width at hwidth
    omega

theorem length_fractionText : (fractionText d place).length = (width d.coefficient - place).toNat := by
  simp only [fractionText, List.length_append, List.length_replicate, List.length_drop]
  unfold width
  omega

theorem ofDigitChars_layout : Nat.ofDigitChars 10 (wholeText d place ++ fractionText d place) 0 =
    d.coefficient * 10 ^ (place - width d.coefficient).toNat := by
  unfold wholeText fractionText
  split_ifs with hplace
  · have hwidth := width_pos d.coefficient
    have hshift : (place - width d.coefficient).toNat = 0 := by omega
    have hall : (digits d.coefficient).drop place.toNat = digits d.coefficient := by
      rw [Int.toNat_of_nonpos hplace, List.drop_zero]
    rw [hshift, hall, pow_zero, mul_one]
    exact ofDigitChars_zeros ((-place).toNat + 1) d.coefficient
  · have hzeros : (-place).toNat = 0 := by omega
    rw [hzeros, List.replicate_zero, List.nil_append]
    by_cases hlong : place ≤ width d.coefficient
    · have hshift : (place - width d.coefficient).toNat = 0 := by omega
      rw [hshift, List.replicate_zero, List.append_nil, List.take_append_drop, pow_zero, mul_one, digits,
        Nat.ofDigitChars_ten_toDigits]
    · have hlength : (digits d.coefficient).length ≤ place.toNat := by
        unfold width at hlong
        omega
      rw [List.take_of_length_le hlength, List.drop_of_length_le hlength, List.append_nil, ofDigitChars_shifted]

/-- A text with the point at any place is read as the number, with zeros instead of a power of ten where the
point stands after the last digit. -/
theorem readDec_layout : readDec (layout d place) = some ⟨d.negative,
    d.coefficient * 10 ^ (place - width d.coefficient).toNat, d.exponent - (place - width d.coefficient).toNat⟩ := by
  rw [layout, readDec_of_parts (wholeText_ne_nil d place) (fun c hc => isDigit_of_mem_wholeText d place hc)
    (fun c hc => isDigit_of_mem_fractionText d place hc), ofDigitChars_layout, length_fractionText]
  congr 2
  unfold unitPlace
  omega

theorem readDec_scientific : readDec (scientific d) = some d := by
  have hwidth := width_pos d.coefficient
  have hplace : ((if d.exponent ≤ 0 ∧ -6 < unitPlace d then unitPlace d else 1) -
      width d.coefficient : ℤ).toNat = 0 := by
    split_ifs with hshort
    · unfold unitPlace
      omega
    · omega
  rw [scientific, readDec_layout, hplace]
  simp

def spelled : Dec := ⟨d.negative, d.coefficient * 10 ^ d.exponent.toNat, d.exponent - d.exponent.toNat⟩

theorem readDec_plain : readDec (plain d) = some (spelled d) := by
  have hplace : unitPlace d - width d.coefficient = d.exponent := by
    unfold unitPlace
    omega
  rw [plain, readDec_layout, hplace, spelled]

end RoundTrip

section Canonical

variable {ctx : Context} {d n : Dec}

theorem normalize_spelled : ctx.normalize (spelled d) = ctx.normalize d := by
  rw [spelled, Context.normalize_shift, sub_add_cancel]

theorem normalize_read (h : ctx.normalize d = some n) : ctx.normalize (spelled n) = some n := by
  rw [normalize_spelled, Context.normalize_of_normal (Context.normal_of_normalize h)]

theorem plain_inj {d' n' : Dec} (h : ctx.normalize d = some n) (h' : ctx.normalize d' = some n')
    (htext : plain n = plain n') : n = n' := by
  have hread : some (spelled n) = some (spelled n') := by rw [← readDec_plain, ← readDec_plain, htext]
  have hsame := (normalize_read h).symm.trans ((Option.some.inj hread) ▸ normalize_read h')
  exact Option.some.inj hsame

end Canonical

end TradingBot.Library.DecimalTexts
