import TradingBot.Library.Outcome
import TradingBot.Library.Tiling
import TradingBot.Research.WalkForward

namespace TradingBot.Research.WalkForwardPlan

open Market.CalendarFacts (monthOf monthOf_bounds monthOf_eq_iff strictMono_monthStart dayOfMonth_eq_one_iff)
open Market.Timeframes (civilDate)
open Library.Outcome (except_bind_eq_ok)
open Library.Tiling Library.WhileLoops
open Research.WalkForward

section Months

def wholeMonths (first last : ℤ) : Set ℤ :=
  {k | first ≤ Market.CalendarFacts.monthStart k ∧ Market.CalendarFacts.monthStart (k + 1) ≤ last + 1}

theorem le_monthOf_iff (k day : ℤ) : k ≤ monthOf day ↔ Market.CalendarFacts.monthStart k ≤ day := by
  obtain ⟨hle, hlt, _⟩ := monthOf_bounds day
  constructor
  · intro h
    exact (strictMono_monthStart.monotone h).trans hle
  · intro h
    have hbefore := strictMono_monthStart.lt_iff_lt.mp (h.trans_lt hlt)
    omega

theorem firstMonthFrom_le_iff (day k : ℤ) :
    (firstMonthFrom day).index ≤ k ↔ day ≤ Market.CalendarFacts.monthStart k := by
  obtain ⟨hle, hlt, _⟩ := monthOf_bounds day
  unfold firstMonthFrom
  by_cases hfirst : (civilDate day).dayOfMonth = 1
  · have hstart := dayOfMonth_eq_one_iff.mp hfirst
    have hindex : Month.index ⟨(civilDate day).year, (civilDate day).month,
      Market.CalendarFacts.civilDate_month day⟩ = monthOf day := rfl
    rw [if_pos hfirst, hindex, ← strictMono_monthStart.le_iff_le, hstart]
  · have hstart : Market.CalendarFacts.monthStart (monthOf day) < day := by
      apply lt_of_le_of_ne hle
      intro heq
      exact hfirst (dayOfMonth_eq_one_iff.mpr heq)
    have hindex : Month.index ⟨(civilDate day).year, (civilDate day).month,
      Market.CalendarFacts.civilDate_month day⟩ = monthOf day := rfl
    rw [if_neg hfirst, index_nextMonth, hindex]
    constructor
    · intro h
      exact hlt.le.trans (strictMono_monthStart.monotone h)
    · intro h
      have hbefore := strictMono_monthStart.lt_iff_lt.mp (hstart.trans_le h)
      omega

theorem wholeMonths_eq (first last : ℤ) :
    wholeMonths first last = Set.Ico (firstMonthFrom first).index (monthOf (last + 1)) := by
  ext k
  have hbefore := firstMonthFrom_le_iff first k
  have hafter := le_monthOf_iff (k + 1) (last + 1)
  rw [Set.mem_Ico, hbefore, ← Int.add_one_le_iff, hafter]
  rfl

theorem ncard_wholeMonths (first last : ℤ) :
    (wholeMonths first last).ncard = (monthOf (last + 1) - (firstMonthFrom first).index).toNat := by
  rw [wholeMonths_eq, ← Finset.coe_Ico, Set.ncard_coe_finset, Int.card_Ico]

theorem le_ncard_wholeMonths_iff {n first last : ℤ} (hn : 1 ≤ n) : n ≤ (wholeMonths first last).ncard ↔
    Market.CalendarFacts.monthStart ((firstMonthFrom first).index + n) ≤ last + 1 := by
  rw [ncard_wholeMonths, ← le_monthOf_iff]
  omega

end Months

section Loops

theorem countTurn_inr {contextStart contextEnd : ℤ} {s : Month × ℕ} {n : ℕ}
    (h : countTurn contextStart contextEnd s = .inr (.ok n)) :
    n = s.2 ∧ contextEnd + 1 < Market.CalendarFacts.monthStart (s.1.index + 1) := by
  obtain ⟨m, count⟩ := s
  unfold countTurn at h
  cases hstart : monthStart m with
  | error e => simp [hstart] at h
  | ok startM =>
    cases hend : monthEnd m with
    | error e => simp [hstart, hend] at h
    | ok endM =>
      have hmonth := (Market.CalendarFacts.monthStart_succ m.index).1
      have hfirst := monthStart_eq_ok hstart
      have hlast := monthEnd_eq_ok hend
      simp only [hstart, hend] at h
      split_ifs at h with hbefore hinside
      · cases h
        exact ⟨rfl, by dsimp only; omega⟩
      · cases h
        exact ⟨rfl, by dsimp only; omega⟩

def Counted (contextStart contextEnd : ℤ) (s : Month × ℕ) : Prop :=
  s.1.index = (firstMonthFrom contextStart).index + s.2 ∧ (s.2 = 0 ∨ s.1.index ≤ monthOf (contextEnd + 1))

theorem counted_turn {contextStart contextEnd : ℤ} (s s' : Month × ℕ) (hs : Counted contextStart contextEnd s)
    (h : (countLoop contextStart contextEnd).turn s = .inl s') : Counted contextStart contextEnd s' := by
  obtain ⟨hend, hnext, hcount⟩ := countTurn_inl h
  have hindex := hs.1
  rw [if_pos ((firstMonthFrom_le_iff _ _).mp (by omega))] at hcount
  rw [Counted, hnext, index_nextMonth, hcount]
  exact ⟨by push_cast; omega, .inr ((le_monthOf_iff _ _).mpr hend)⟩

theorem countCompletedMonthlyCandles_ok {contextStart contextEnd : ℤ} {n : ℕ}
    (h : countCompletedMonthlyCandles contextStart contextEnd = .ok n) :
    n = (wholeMonths contextStart contextEnd).ncard := by
  have hfirst := firstMonthFrom_le_iff contextStart (firstMonthFrom contextStart).index
  rw [ncard_wholeMonths]
  unfold countCompletedMonthlyCandles at h
  split_ifs at h with hempty
  · cases h
    have hmonth := monthOf_bounds (contextEnd + 1)
    have hafter := le_monthOf_iff ((firstMonthFrom contextStart).index + 1) (contextEnd + 1)
    have hnext := (Market.CalendarFacts.monthStart_succ (firstMonthFrom contextStart).index).1
    omega
  · apply WhileLoop.run_induction counted_turn _ _ h
    · rintro s ⟨hindex, hlast⟩ hturn
      obtain ⟨rfl, hend⟩ := countTurn_inr hturn
      have hafter := le_monthOf_iff (s.1.index + 1) (contextEnd + 1)
      omega
    · exact ⟨by simp, .inl rfl⟩

theorem addDays_eq_ok {date days d : ℤ} (h : addDays date days = .ok d) : d = date + days := by
  unfold addDays at h
  split_ifs at h
  cases h
  rfl

theorem warmupTurn_inr {rangeStart monthlyBars d : ℤ} {s : Month × ℤ}
    (h : warmupTurn rangeStart monthlyBars s = .inr (.ok d)) :
    s.2 + 1 = monthlyBars ∧ d = Market.CalendarFacts.monthStart (s.1.index + 1) := by
  obtain ⟨m, completed⟩ := s
  unfold warmupTurn at h
  by_cases hdone : monthlyBars ≤ completed
  · simp [hdone] at h
  · cases hstart : monthStart m with
    | error e => simp [hdone, hstart] at h
    | ok startM =>
      cases hend : monthEnd m with
      | error e => simp [hdone, hstart, hend] at h
      | ok endM =>
        simp only [hdone, hstart, hend, if_false] at h
        split_ifs at h with hwhole hlast
        exact ⟨hlast, (addDays_eq_ok (Sum.inr.inj h)).trans (monthEnd_eq_ok hend)⟩

def Searched (rangeStart : ℤ) (s : Month × ℤ) : Prop :=
  s.1.index = (firstMonthFrom rangeStart).index + s.2 ∧ 0 ≤ s.2

theorem searched_turn {rangeStart monthlyBars : ℤ} (s s' : Month × ℤ) (hs : Searched rangeStart s)
    (h : (warmupLoop rangeStart monthlyBars).turn s = .inl s') : Searched rangeStart s' := by
  obtain ⟨hindex, hcompleted⟩ := hs
  obtain ⟨_, _, hnext, hcase⟩ := warmupTurn_inl h
  rw [if_pos ((firstMonthFrom_le_iff _ _).mp (by omega))] at hcase
  rw [Searched, hnext, index_nextMonth, hcase.2]
  omega

theorem earliestEvalStart_ok {rangeStart monthlyBars d : ℤ}
    (h : earliestEvalStartForMonthlyWarmup rangeStart monthlyBars = .ok d) :
    d = Market.CalendarFacts.monthStart ((firstMonthFrom rangeStart).index + monthlyBars) := by
  unfold earliestEvalStartForMonthlyWarmup at h
  split_ifs at h with hbars
  apply WhileLoop.run_induction searched_turn _ _ h
  · rintro s ⟨hindex, _⟩ hturn
    obtain ⟨hlast, rfl⟩ := warmupTurn_inr hturn
    rw [hindex, ← hlast, add_assoc]
  · exact ⟨by simp, le_rfl⟩

end Loops

section Exactness

/-- The days of the evaluation, up to before the day after its end. -/
def window (fold : WalkForwardFold) : ℤ × ℤ := (fold.evalStart, fold.evalEnd + 1)

variable (request : PlanRequest)

def Warm (date : ℤ) : Prop :=
  request.featureWarmupMonthlyBars ≤ (wholeMonths request.rangeStart (date - 1)).ncard ∧
    ∀ days ∈ request.featureWarmupDays, request.rangeStart + days ≤ date

structure FoldExact (fold : WalkForwardFold) : Prop where
  featureStart : fold.featureContextStart = request.rangeStart
  featureEnd : fold.featureContextEnd + 1 = fold.evalStart
  months : request.featureWarmupMonthlyBars ≤ (wholeMonths fold.featureContextStart fold.featureContextEnd).ncard
  days : ∀ days ∈ request.featureWarmupDays, days ≤ fold.featureContextEnd + 1 - fold.featureContextStart
  labelStart : fold.labelContextStart = request.rangeStart
  labelEnd : fold.labelContextEnd + 1 = fold.evalStart - request.embargoDays
  label : fold.labelContextStart ≤ fold.labelContextEnd

structure PlanExact (folds : List WalkForwardFold) : Prop where
  count : (folds.length : ℤ) = request.nFolds
  tiles : ∃ first, IsLeast {date | Warm request date} first ∧
    Tiles first (request.rangeEnd + 1) (folds.map window) ∧
    ∀ date, first ≤ date → date ≤ request.rangeEnd → ∃ fold ∈ folds, fold.evalStart ≤ date ∧ date ≤ fold.evalEnd
  ordered : folds.Pairwise fun f g => f.evalEnd < g.evalStart
  balanced : ∀ f ∈ folds, ∀ g ∈ folds, f.evalEnd - f.evalStart ≤ g.evalEnd - g.evalStart + 1
  contexts : ∀ fold ∈ folds, FoldExact request fold

variable {request}

theorem ensure_eq_ok {holds : Bool} {message : String} {u : Unit} (h : ensure holds message = .ok u) :
    holds = true := by
  cases holds with
  | true => rfl
  | false => cases h

theorem embargoWindow_ok {evalStart featureContextEnd : ℤ} {window : ℤ × ℤ}
    (hfeature : featureContextEnd + 1 = evalStart)
    (h : embargoWindow request evalStart featureContextEnd = .ok window) :
    window.2 + 1 = evalStart - request.embargoDays := by
  unfold embargoWindow at h
  split_ifs at h with hzero
  · cases h
    dsimp only
    omega
  · obtain ⟨embargoStart, hstart, h⟩ := except_bind_eq_ok.mp h
    obtain ⟨labelContextEnd, hend, h⟩ := except_bind_eq_ok.mp h
    cases h
    have hstart := addDays_eq_ok hstart
    have hend := addDays_eq_ok hend
    dsimp only
    omega

theorem planFold_ok {i : ℕ} {cursor length : ℤ} {fold : WalkForwardFold}
    (h : planFold request i cursor length = .ok fold) :
    FoldExact request fold ∧ fold.evalStart = cursor ∧ fold.evalEnd + 1 = cursor + length := by
  obtain ⟨evalEnd, hevalEnd, h⟩ := except_bind_eq_ok.mp h
  obtain ⟨featureEnd, hfeature, h⟩ := except_bind_eq_ok.mp h
  obtain ⟨completed, hcount, h⟩ := except_bind_eq_ok.mp h
  obtain ⟨_, hmonths, h⟩ := except_bind_eq_ok.mp h
  obtain ⟨_, hspan, h⟩ := except_bind_eq_ok.mp h
  obtain ⟨embargo, hembargo, h⟩ := except_bind_eq_ok.mp h
  obtain ⟨_, hlabel, h⟩ := except_bind_eq_ok.mp h
  cases h
  have hevalEnd := addDays_eq_ok hevalEnd
  have hfeature := addDays_eq_ok hfeature
  have hmonths := of_decide_eq_true (ensure_eq_ok hmonths)
  have hspan := ensure_eq_ok hspan
  have hlabelEnd := embargoWindow_ok (by omega) hembargo
  rw [countCompletedMonthlyCandles_ok hcount] at hmonths
  refine ⟨?_, rfl, by dsimp only; omega⟩
  constructor
  case featureStart | labelStart => rfl
  case featureEnd => dsimp only; omega
  case months => exact hmonths
  case days =>
    intro days hdays
    rw [Option.mem_def.mp hdays] at hspan
    have hspan := of_decide_eq_true hspan
    dsimp only
    omega
  case labelEnd => exact hlabelEnd
  case label => exact of_decide_eq_true (ensure_eq_ok hlabel)

theorem planFolds_ok {totalDays first : ℤ} {left i : ℕ} {folds : List WalkForwardFold}
    (hshare : 1 ≤ totalDays / request.nFolds)
    (h : planFolds request totalDays left i (first + cut totalDays request.nFolds i) = .ok folds) :
    folds.length = left ∧
      Tiles (first + cut totalDays request.nFolds i) (first + cut totalDays request.nFolds (i + left))
        (folds.map window) ∧
      ∀ fold ∈ folds, FoldExact request fold ∧ (fold.evalEnd + 1 - fold.evalStart = totalDays / request.nFolds ∨
        fold.evalEnd + 1 - fold.evalStart = totalDays / request.nFolds + 1) := by
  induction left generalizing i folds with
  | zero =>
    cases h
    exact ⟨rfl, Tiles.nil _, by simp⟩
  | succ left ih =>
    obtain ⟨fold, hfold, h⟩ := except_bind_eq_ok.mp h
    obtain ⟨next, hnext, h⟩ := except_bind_eq_ok.mp h
    obtain ⟨rest, hrest, h⟩ := except_bind_eq_ok.mp h
    cases h
    obtain ⟨hexact, hstart, hend⟩ := planFold_ok hfold
    have hcut : cut totalDays request.nFolds (i + 1) = cut totalDays request.nFolds i +
        (totalDays / request.nFolds + if i < totalDays % request.nFolds then 1 else 0) := cut_succ i
    have hnext : next = first + cut totalDays request.nFolds (i + 1) := by
      rw [addDays_eq_ok hnext, hend, hcut]
      ring
    have hsum : i + (left + 1) = i + 1 + left := by omega
    rw [hnext] at hrest
    obtain ⟨hlength, htiles, hfolds⟩ := ih hrest
    refine ⟨by simp [hlength], ?_, List.forall_mem_cons.mpr ⟨⟨hexact, ?_⟩, hfolds⟩⟩
    · rw [hsum, List.map_cons, window, hstart, ← addDays_eq_ok ‹addDays fold.evalEnd 1 = .ok next›, hnext]
      apply Tiles.cons _ htiles
      split_ifs at hcut
      all_goals omega
    · split_ifs at hend
      all_goals omega

theorem firstEvalStart_ok {first : ℤ} (hbars : 1 ≤ request.featureWarmupMonthlyBars)
    (h : firstEvalStart request = .ok first) : IsLeast {date | Warm request date} first := by
  obtain ⟨earliest, hearliest, h⟩ := except_bind_eq_ok.mp h
  have hearliest := earliestEvalStart_ok hearliest
  have hwarm : ∀ date, Warm request date ↔
      earliest ≤ date ∧ ∀ days ∈ request.featureWarmupDays, request.rangeStart + days ≤ date := by
    intro date
    unfold Warm
    rw [le_ncard_wholeMonths_iff hbars, ← hearliest, sub_add_cancel]
  cases hdays : request.featureWarmupDays with
  | none =>
    rw [hdays] at h
    cases h
    constructor
    · exact (hwarm _).mpr ⟨le_rfl, by simp [hdays]⟩
    · exact fun date hdate => ((hwarm date).mp hdate).1
  | some days =>
    rw [hdays] at h
    obtain ⟨floor, hfloor, h⟩ := except_bind_eq_ok.mp h
    cases h
    have hfloor := addDays_eq_ok hfloor
    constructor
    · refine (hwarm _).mpr ⟨le_max_left _ _, ?_⟩
      intro days' hdays'
      obtain rfl : days = days' := by simpa [hdays] using hdays'
      exact hfloor ▸ le_max_right _ _
    · intro date hdate
      obtain ⟨hmonths, hdate⟩ := (hwarm date).mp hdate
      have hdate := hdate days (by rw [hdays]; rfl)
      exact max_le hmonths (hfloor ▸ hdate)

theorem planWalkForwardFolds_exact {folds : List WalkForwardFold} (h : planWalkForwardFolds request = .ok folds) :
    PlanExact request folds := by
  obtain ⟨_, _, h⟩ := except_bind_eq_ok.mp h
  obtain ⟨_, hn, h⟩ := except_bind_eq_ok.mp h
  obtain ⟨_, _, h⟩ := except_bind_eq_ok.mp h
  obtain ⟨_, hbars, h⟩ := except_bind_eq_ok.mp h
  obtain ⟨_, _, h⟩ := except_bind_eq_ok.mp h
  obtain ⟨first, hfirst, h⟩ := except_bind_eq_ok.mp h
  obtain ⟨_, _, h⟩ := except_bind_eq_ok.mp h
  obtain ⟨_, htotal, h⟩ := except_bind_eq_ok.mp h
  have hn : 1 ≤ request.nFolds := of_decide_eq_true (ensure_eq_ok hn)
  have hbars : 1 ≤ request.featureWarmupMonthlyBars := of_decide_eq_true (ensure_eq_ok hbars)
  have htotal : request.nFolds ≤ request.rangeEnd - first + 1 := of_decide_eq_true (ensure_eq_ok htotal)
  have hshare : 1 ≤ (request.rangeEnd - first + 1) / request.nFolds := by
    rw [Int.le_ediv_iff_mul_le (by omega)]
    omega
  have hzero : cut (request.rangeEnd - first + 1) request.nFolds 0 = 0 := cut_zero (by omega)
  have hall : cut (request.rangeEnd - first + 1) request.nFolds request.nFolds.toNat =
      request.rangeEnd - first + 1 := cut_all (by omega)
  have hstart : planFolds request (request.rangeEnd - first + 1) request.nFolds.toNat 0
      (first + cut (request.rangeEnd - first + 1) request.nFolds 0) = .ok folds := by
    rw [hzero, add_zero]
    exact h
  obtain ⟨hlength, htiles, hfolds⟩ := planFolds_ok hshare hstart
  have hend : first + (request.rangeEnd - first + 1) = request.rangeEnd + 1 := by ring
  rw [hzero, add_zero, zero_add, hall, hend] at htiles
  constructor
  case count => rw [hlength, Int.toNat_of_nonneg (by omega)]
  case tiles =>
    refine ⟨first, firstEvalStart_ok hbars hfirst, htiles, ?_⟩
    intro date hlow hhigh
    obtain ⟨w, ⟨hw, hin⟩, _⟩ := htiles.existsUnique (x := date) ⟨hlow, by omega⟩
    obtain ⟨fold, hfold, rfl⟩ := List.mem_map.mp hw
    exact ⟨fold, hfold, hin.1, Int.lt_add_one_iff.mp hin.2⟩
  case ordered => exact (List.pairwise_map.mp htiles.ordered).imp fun h => Int.add_one_le_iff.mp h
  case balanced =>
    intro f hf g hg
    have hflength := (hfolds f hf).2
    have hglength := (hfolds g hg).2
    omega
  case contexts => exact fun fold hfold => (hfolds fold hfold).1

theorem request_of_plan {folds : List WalkForwardFold} (h : planWalkForwardFolds request = .ok folds) :
    1 ≤ request.nFolds ∧ 0 ≤ request.embargoDays ∧ 1 ≤ request.featureWarmupMonthlyBars := by
  obtain ⟨_, _, h⟩ := except_bind_eq_ok.mp h
  obtain ⟨_, hn, h⟩ := except_bind_eq_ok.mp h
  obtain ⟨_, hembargo, h⟩ := except_bind_eq_ok.mp h
  obtain ⟨_, hbars, _⟩ := except_bind_eq_ok.mp h
  exact ⟨of_decide_eq_true (ensure_eq_ok hn), of_decide_eq_true (ensure_eq_ok hembargo),
    of_decide_eq_true (ensure_eq_ok hbars)⟩

theorem evalEnd_of_plan {folds : List WalkForwardFold} (h : planWalkForwardFolds request = .ok folds) :
    (∀ fold ∈ folds, fold.evalEnd ≤ request.rangeEnd) ∧ ∃ fold ∈ folds, fold.evalEnd = request.rangeEnd := by
  have hexact := planWalkForwardFolds_exact h
  have hn := (request_of_plan h).1
  obtain ⟨first, _, htiles, _⟩ := hexact.tiles
  constructor
  · intro fold hfold
    have hwithin := (htiles.within _ (List.mem_map_of_mem hfold)).2.2
    exact Int.add_le_add_iff_right 1 |>.mp hwithin
  · have hne : folds.map window ≠ [] := by
      intro hnil
      have hcount := hexact.count
      rw [List.map_eq_nil_iff.mp hnil, List.length_nil] at hcount
      omega
    obtain ⟨w, hw, hlast⟩ := htiles.exists_last hne
    obtain ⟨fold, hfold, rfl⟩ := List.mem_map.mp hw
    exact ⟨fold, hfold, add_right_cancel hlast⟩

/-- Both loops of the planner leave, from every state. What is planned is exact. -/
theorem walk_forward_plan_exact (request : PlanRequest) :
    (∀ contextStart contextEnd s, ∃ n r, turns (countTurn contextStart contextEnd) n s = some r) ∧
    (∀ rangeStart monthlyBars s, ∃ n r, turns (warmupTurn rangeStart monthlyBars) n s = some r) ∧
    ∀ folds, planWalkForwardFolds request = .ok folds → PlanExact request folds := by
  refine ⟨?_, ?_, fun folds h => planWalkForwardFolds_exact h⟩
  · intro contextStart contextEnd s
    obtain ⟨n, hn⟩ := (countLoop contextStart contextEnd).terminates s
    exact ⟨n, _, hn⟩
  · intro rangeStart monthlyBars s
    obtain ⟨n, hn⟩ := (warmupLoop rangeStart monthlyBars).terminates s
    exact ⟨n, _, hn⟩

def sampleRequest : PlanRequest where
  rangeStart := 19706
  rangeEnd := 20088
  nFolds := 4
  embargoDays := 10
  featureWarmupMonthlyBars := 2
  featureWarmupDays := some 30

theorem walk_forward_plan_exact_sample :
    ∃ folds, planWalkForwardFolds sampleRequest = .ok folds ∧ PlanExact sampleRequest folds :=
  ⟨_, rfl, (walk_forward_plan_exact sampleRequest).2.2 _ rfl⟩

example : (planWalkForwardFolds sampleRequest).map (List.map window) =
    .ok [(19783, 19860), (19860, 19937), (19937, 20013), (20013, 20089)] := by
  decide +kernel

end Exactness

end TradingBot.Research.WalkForwardPlan
