import TradingBot.Library.Drawdown
import TradingBot.Market.ContentHash
import TradingBot.Research.RegimeAttribution

namespace TradingBot.Research.EpisodeDrawdown

open Library.Drawdown Library.Outcome Library.Rounding Library.Runs Market.ContentHash
open Research.RegimeAttribution Research.RegimeQuality

section Context

/-- A language that computes with rationals and rounds what it computes. -/
def rounded (round : ℚ → ℚ) (lang : RegimeQuality.Language ℚ) : RegimeQuality.Language ℚ :=
  { exact lang with
    add := fun x y => round (x + y)
    sub := fun x y => round (x - y)
    mul := fun x y => round (x * y)
    div := fun x y => round (x / y) }

/-- Decimals in the default context: results have 28 significant digits. Numbers are read and compared as they are. -/
def inContext (lang : RegimeQuality.Language ℚ) : RegimeQuality.Language ℚ := rounded canonicalDecimal lang

end Context

section Episodes

def IsEpisode (timeline : List TaggedPoint) (cellId : String) (episode : List TaggedPoint) : Prop :=
  IsRun (fun point => point.cell = some cellId) timeline episode

variable {cellId : String} {timeline timeline' : List TaggedPoint} {rows : List EquityRow}

theorem mem_episodesFrom {current rest : List TaggedPoint} (hcurrent : ∀ point ∈ current, point.cell = some cellId) :
    rows ∈ episodesFrom cellId (current.map (·.snap)) rest ↔
      ∃ episode, IsEpisode (current ++ rest) cellId episode ∧ rows = episode.map (·.snap) := by
  induction rest generalizing current with
  | nil =>
    simp only [List.append_nil, IsEpisode, isRun_of_all hcurrent]
    cases current with
    | nil => simp [episodesFrom]
    | cons first current => simp [episodesFrom]
  | cons point rest ih =>
    by_cases hcell : point.cell = some cellId
    · have hopen : ∀ q ∈ current ++ [point], q.cell = some cellId := by
        simpa [or_imp, forall_and] using ⟨hcurrent, hcell⟩
      have hrest := ih hopen
      rw [List.map_append, List.append_assoc] at hrest
      cases current with
      | nil => simpa [episodesFrom, hcell] using hrest
      | cons first current => simpa [episodesFrom, hcell] using hrest
    · have hnone : ∀ q ∈ ([] : List TaggedPoint), q.cell = some cellId := by simp
      have hrest := ih hnone
      rw [List.map_nil, List.nil_append] at hrest
      simp only [IsEpisode, isRun_append_cons hcurrent hcell, or_and_right, exists_or] at hrest ⊢
      rw [← hrest]
      cases current with
      | nil => simp [episodesFrom, hcell]
      | cons first current => simp [episodesFrom, hcell]

theorem mem_contiguousEpisodes : rows ∈ contiguousEpisodes timeline cellId ↔
    ∃ episode, IsEpisode timeline cellId episode ∧ rows = episode.map (·.snap) := by
  have hnone : ∀ point ∈ ([] : List TaggedPoint), point.cell = some cellId := by simp
  exact mem_episodesFrom hnone

/-- A point that may have changed: one of the cell has not, and none has come into the cell. -/
def SameInside (cellId : String) (point point' : TaggedPoint) : Prop :=
  point = point' ∨ point.cell ≠ some cellId ∧ point'.cell ≠ some cellId

theorem episodesFrom_sameInside (h : List.Forall₂ (SameInside cellId) timeline timeline') (current : List EquityRow) :
    episodesFrom cellId current timeline = episodesFrom cellId current timeline' := by
  induction h generalizing current with
  | nil => rfl
  | @cons point point' rest rest' hpoint _ ih =>
    obtain rfl | ⟨hcell, hcell'⟩ := hpoint
    · cases current <;> simp only [episodesFrom, ih]
    · cases current <;> simp only [episodesFrom, hcell, hcell', if_false, ih]

theorem maxDrawdownFromEpisodes_sameInside {D : Type} (lang : RegimeQuality.Language D)
    (h : List.Forall₂ (SameInside cellId) timeline timeline') :
    maxDrawdownFromEpisodes lang timeline' cellId = maxDrawdownFromEpisodes lang timeline cellId := by
  rw [maxDrawdownFromEpisodes, maxDrawdownFromEpisodes, contiguousEpisodes, contiguousEpisodes,
    episodesFrom_sameInside h]

end Episodes

section Curves

variable {lang : RegimeQuality.Language ℚ} {round : ℚ → ℚ} {cellId : String} {timeline : List TaggedPoint}
  {rows : List EquityRow} {row : EquityRow}

def equityOf (lang : RegimeQuality.Language ℚ) (row : EquityRow) : ℚ := (lang.decimal row.equity.str).getD 0

/-- The worst fall of an episode's rebased curve, if it has two levels. -/
def rebasedDrawdown (round : ℚ → ℚ) : List ℚ → Option ℚ
  | first :: second :: rest => some (worstFall round 1 1 0 first (second :: rest))
  | _ => none

theorem parse_equity (hrow : 0 < equityOf lang row) :
    (rounded round lang).parse row.equity.str = .ok (equityOf lang row) := by
  unfold equityOf at hrow ⊢
  cases hread : lang.decimal row.equity.str with
  | none => simp [hread] at hrow
  | some d =>
    have hsame : (rounded round lang).decimal row.equity.str = some d := hread
    rw [RegimeQuality.Language.parse, hsame, Option.getD_some]

theorem zero_rounded : (rounded round lang).zero = 0 := Int.cast_zero

theorem one_rounded : (rounded round lang).one = 1 := Int.cast_one

theorem le_rounded {a b : ℚ} : (rounded round lang).le a b = decide (a ≤ b) := by
  simp only [RegimeQuality.Language.le, rounded, exact, ← decide_not, not_lt]

theorem max_rounded (a b : ℚ) : (rounded round lang).max a b = max a b := by
  simp only [RegimeQuality.Language.max, rounded, exact, decide_eq_true_eq, max_def_lt]

theorem rebase_rounded {curve : RebasedCurve ℚ} (hprev : 0 < curve.prev) (hpeak : 0 < curve.peak)
    (hrow : 0 < equityOf lang row) : rebase (rounded round lang) curve row =
      let next := round (curve.level * growth round curve.prev (equityOf lang row))
      .ok { level := next, peak := max curve.peak next,
            drawdown := max curve.drawdown (fall round (max curve.peak next) next), prev := equityOf lang row } := by
  have hmax : ∀ level, 0 < max curve.peak level := fun level => lt_max_of_lt_left hpeak
  rw [rebase, parse_equity hrow, except_ok_bind, zero_rounded, one_rounded, le_rounded, if_neg (by simpa using hprev)]
  simp only [max_rounded]
  simp only [rounded, exact, hmax, decide_true, Bool.true_and, decide_eq_true_eq]
  rw [max_def_lt curve.drawdown]
  rfl

theorem foldlM_rebase (hrows : ∀ row ∈ rows, 0 < equityOf lang row) {curve : RebasedCurve ℚ} (hprev : 0 < curve.prev)
    (hpeak : 0 < curve.peak) : (rows.foldlM (rebase (rounded round lang)) curve).map (·.drawdown) =
      .ok (worstFall round curve.level curve.peak curve.drawdown curve.prev (rows.map (equityOf lang))) := by
  induction rows generalizing curve with
  | nil => rfl
  | cons row rows ih =>
    have hrow : 0 < equityOf lang row := hrows row List.mem_cons_self
    rw [List.foldlM_cons, rebase_rounded hprev hpeak hrow, except_ok_bind, List.map_cons, worstFall]
    exact ih (fun r hr => hrows r (List.mem_cons_of_mem row hr)) hrow (lt_max_of_lt_left hpeak)

theorem episodeDrawdown_rounded (hrows : ∀ row ∈ rows, 0 < equityOf lang row) :
    episodeDrawdown (rounded round lang) rows = .ok (rebasedDrawdown round (rows.map (equityOf lang))) := by
  match rows, hrows with
  | [], _ => rfl
  | [_], _ => rfl
  | first :: second :: rest, hrows =>
    have hfirst : 0 < equityOf lang first := hrows first List.mem_cons_self
    have hrest : ∀ row ∈ second :: rest, 0 < equityOf lang row := fun row hrow =>
      hrows row (List.mem_cons_of_mem first hrow)
    let start : RebasedCurve ℚ := { level := 1, peak := 1, drawdown := 0, prev := equityOf lang first }
    have hrun : ((second :: rest).foldlM (rebase (rounded round lang)) start).map (·.drawdown) = _ :=
      foldlM_rebase hrest hfirst one_pos
    obtain ⟨curve, hcurve, hdrawdown⟩ := except_map_eq_ok.mp hrun
    rw [episodeDrawdown, parse_equity hfirst, except_ok_bind, zero_rounded, one_rounded, le_rounded,
      if_neg (by simpa using hfirst), hcurve, except_ok_bind]
    exact congrArg (fun d => Except.ok (some d)) hdrawdown

def Positive (lang : RegimeQuality.Language ℚ) (timeline : List TaggedPoint) (cellId : String) : Prop :=
  ∀ point ∈ timeline, point.cell = some cellId → 0 < equityOf lang point.snap

instance : Decidable (Positive lang timeline cellId) :=
  inferInstanceAs (Decidable (∀ point ∈ timeline, point.cell = some cellId → 0 < equityOf lang point.snap))

def levels (lang : RegimeQuality.Language ℚ) (episode : List TaggedPoint) : List ℚ :=
  episode.map fun point => equityOf lang point.snap

theorem Positive.levels_pos (hpositive : Positive lang timeline cellId) {episode : List TaggedPoint}
    (hepisode : IsEpisode timeline cellId episode) : ∀ a ∈ levels lang episode, 0 < a := by
  refine List.forall_mem_map.mpr fun point hpoint => ?_
  exact hpositive point (hepisode.subset hpoint) (hepisode.all_good point hpoint)

theorem maxDrawdownFromEpisodes_rounded (round : ℚ → ℚ) (hpositive : Positive lang timeline cellId) :
    ∃ ds : List ℚ, maxDrawdownFromEpisodes (rounded round lang) timeline cellId = .ok ds.max? ∧ ∀ d, d ∈ ds ↔
      ∃ episode, IsEpisode timeline cellId episode ∧ rebasedDrawdown round (levels lang episode) = some d := by
  have hdrawdowns : (contiguousEpisodes timeline cellId).mapM (episodeDrawdown (rounded round lang)) =
      .ok ((contiguousEpisodes timeline cellId).map fun rows => rebasedDrawdown round (rows.map (equityOf lang))) := by
    refine mapM_ok fun rows hrows => episodeDrawdown_rounded ?_
    obtain ⟨episode, hepisode, rfl⟩ := mem_contiguousEpisodes.mp hrows
    refine List.forall_mem_map.mpr fun point hpoint => ?_
    exact hpositive point (hepisode.subset hpoint) (hepisode.all_good point hpoint)
  refine ⟨((contiguousEpisodes timeline cellId).map fun rows =>
    rebasedDrawdown round (rows.map (equityOf lang))).reduceOption, ?_, fun d => ?_⟩
  · rw [maxDrawdownFromEpisodes, hdrawdowns, except_ok_bind]
    refine congrArg Except.ok (foldl_eq_max? (fun _ => rfl) (fun worst dd => ?_) _)
    exact congrArg some (max_rounded worst dd)
  · rw [List.reduceOption_mem_iff, List.mem_map]
    constructor
    · rintro ⟨rows, hrows, hd⟩
      obtain ⟨episode, hepisode, rfl⟩ := mem_contiguousEpisodes.mp hrows
      rw [List.map_map] at hd
      exact ⟨episode, hepisode, hd⟩
    · rintro ⟨episode, hepisode, hd⟩
      refine ⟨_, mem_contiguousEpisodes.mpr ⟨episode, hepisode, rfl⟩, ?_⟩
      rw [List.map_map]
      exact hd

theorem rebasedDrawdown_isSome (round : ℚ → ℚ) (l : List ℚ) : (rebasedDrawdown round l).isSome ↔ 2 ≤ l.length := by
  match l with
  | [] => simp [rebasedDrawdown]
  | [_] => simp [rebasedDrawdown]
  | _ :: _ :: _ => simp [rebasedDrawdown]

theorem abs_rebasedDrawdown_sub_le {u d : ℚ} (hround : Rounds u round) (hu : u ≤ 1 / 100) {l : List ℚ}
    (hpos : ∀ a ∈ l, 0 < a) (hd : rebasedDrawdown round l = some d) : |d - maxDrawdown l| ≤ 5 * u * l.length := by
  match l, hpos, hd with
  | first :: second :: rest, hpos, hd =>
    cases hd
    exact abs_worstFall_sub_le hround hu (hpos first List.mem_cons_self) fun a ha =>
      hpos a (List.mem_cons_of_mem first ha)

end Curves

section Losses

variable {lang : RegimeQuality.Language ℚ} {round : ℚ → ℚ} {cellId : String} {timeline : List TaggedPoint}
  {u worst d : ℚ}

/-- What is lost between two points of one episode of a cell, the first not after the second. -/
def episodeLosses (lang : RegimeQuality.Language ℚ) (timeline : List TaggedPoint) (cellId : String) : Set ℚ :=
  {d | ∃ episode, IsEpisode timeline cellId episode ∧ ∃ (i j : ℕ) (a b : ℚ), i ≤ j ∧
    (levels lang episode)[i]? = some a ∧ (levels lang episode)[j]? = some b ∧ d = (a - b) / a}

def Measured (timeline : List TaggedPoint) (cellId : String) : Prop :=
  ∃ episode, IsEpisode timeline cellId episode ∧ 2 ≤ episode.length

theorem isGreatest_of_episodes {episode : List TaggedPoint} (hepisode : IsEpisode timeline cellId episode)
    (hall : ∀ other, IsEpisode timeline cellId other →
      maxDrawdown (levels lang other) ≤ maxDrawdown (levels lang episode)) :
    IsGreatest (episodeLosses lang timeline cellId) (maxDrawdown (levels lang episode)) := by
  have hne : ∀ other, IsEpisode timeline cellId other → levels lang other ≠ [] := fun other hother => by
    simpa [levels] using hother.nonempty
  constructor
  · exact ⟨episode, hepisode, (isGreatest_maxDrawdown (hne episode hepisode)).1⟩
  · rintro d ⟨other, hother, hloss⟩
    exact ((isGreatest_maxDrawdown (hne other hother)).2 hloss).trans (hall other hother)

theorem maxDrawdown_of_short {l : List ℚ} (hl : l.length < 2) : maxDrawdown l = 0 := by
  match l, hl with
  | [], _ => rfl
  | [_], _ => rfl

theorem maxDrawdownFromEpisodes_unmeasured (round : ℚ → ℚ) (hpositive : Positive lang timeline cellId)
    (hmeasured : ¬ Measured timeline cellId) :
    maxDrawdownFromEpisodes (rounded round lang) timeline cellId = .ok none := by
  obtain ⟨ds, hds, hmem⟩ := maxDrawdownFromEpisodes_rounded round hpositive
  have hnil : ds = [] := by
    refine List.eq_nil_iff_forall_not_mem.mpr fun d hd => ?_
    obtain ⟨episode, hepisode, hsome⟩ := (hmem d).mp hd
    have hlength := (rebasedDrawdown_isSome round (levels lang episode)).mp (Option.isSome_of_eq_some hsome)
    exact hmeasured ⟨episode, hepisode, by rwa [levels, List.length_map] at hlength⟩
  rw [hds, hnil, List.max?_nil]

theorem maxDrawdownFromEpisodes_measured (round : ℚ → ℚ) (hpositive : Positive lang timeline cellId)
    (hmeasured : Measured timeline cellId) :
    ∃ d, maxDrawdownFromEpisodes (rounded round lang) timeline cellId = .ok (some d) ∧
      (∃ episode, IsEpisode timeline cellId episode ∧ rebasedDrawdown round (levels lang episode) = some d) ∧
      ∀ episode, IsEpisode timeline cellId episode → ∀ dd, rebasedDrawdown round (levels lang episode) = some dd →
        dd ≤ d := by
  obtain ⟨ds, hds, hmem⟩ := maxDrawdownFromEpisodes_rounded round hpositive
  obtain ⟨episode, hepisode, hlength⟩ := hmeasured
  have hsome : (rebasedDrawdown round (levels lang episode)).isSome :=
    (rebasedDrawdown_isSome round _).mpr (by rwa [levels, List.length_map])
  obtain ⟨dd, hdd⟩ := Option.isSome_iff_exists.mp hsome
  cases hmax : ds.max? with
  | none =>
    have hnot : dd ∈ ([] : List ℚ) := List.max?_eq_none_iff.mp hmax ▸ (hmem dd).mpr ⟨episode, hepisode, hdd⟩
    exact absurd hnot List.not_mem_nil
  | some d =>
    obtain ⟨hd, hle⟩ := List.max?_eq_some_iff.mp hmax
    refine ⟨d, by rw [hds, hmax], (hmem d).mp hd, fun other hother dd' hdd' => ?_⟩
    exact hle dd' ((hmem dd').mpr ⟨other, hother, hdd'⟩)

theorem rebasedDrawdown_id {l : List ℚ} (hpos : ∀ a ∈ l, 0 < a) (hd : rebasedDrawdown id l = some d) :
    d = maxDrawdown l := by
  have h := abs_rebasedDrawdown_sub_le rounds_id (by norm_num) hpos hd
  rw [mul_zero, zero_mul, abs_nonpos_iff, sub_eq_zero] at h
  exact h

theorem maxDrawdownFromEpisodes_exact (hpositive : Positive lang timeline cellId)
    (hmeasured : Measured timeline cellId) :
    ∃ worst, maxDrawdownFromEpisodes (exact lang) timeline cellId = .ok (some worst) ∧
      IsGreatest (episodeLosses lang timeline cellId) worst ∧ ∃ episode, IsEpisode timeline cellId episode ∧
        2 ≤ episode.length ∧ worst = maxDrawdown (levels lang episode) := by
  obtain ⟨worst, hrun, ⟨episode, hepisode, hworst⟩, hall⟩ := maxDrawdownFromEpisodes_measured id hpositive hmeasured
  have hlength : 2 ≤ episode.length := by
    have h := (rebasedDrawdown_isSome id (levels lang episode)).mp (Option.isSome_of_eq_some hworst)
    rwa [levels, List.length_map] at h
  obtain rfl := rebasedDrawdown_id (hpositive.levels_pos hepisode) hworst
  refine ⟨_, hrun, isGreatest_of_episodes hepisode fun other hother => ?_, episode, hepisode, hlength, rfl⟩
  rcases lt_or_ge (levels lang other).length 2 with hshort | hlong
  · rw [maxDrawdown_of_short hshort]
    exact maxDrawdown_nonneg _
  · obtain ⟨dd, hdd⟩ := Option.isSome_iff_exists.mp ((rebasedDrawdown_isSome id _).mpr hlong)
    rw [← rebasedDrawdown_id (hpositive.levels_pos hother) hdd]
    exact hall other hother dd hdd

theorem error_le (hround : Rounds u round) {m n : ℕ} (h : m ≤ n) : 5 * u * m ≤ 5 * u * n :=
  mul_le_mul_of_nonneg_left (Nat.cast_le.mpr h) (mul_nonneg (by norm_num) hround.nonneg)

theorem maxDrawdownFromEpisodes_near (hround : Rounds u round) (hu : u ≤ 1 / 100)
    (hpositive : Positive lang timeline cellId) (hmeasured : Measured timeline cellId)
    (hworst : IsGreatest (episodeLosses lang timeline cellId) worst) :
    ∃ d, maxDrawdownFromEpisodes (rounded round lang) timeline cellId = .ok (some d) ∧
      ∀ n : ℕ, (∀ episode, IsEpisode timeline cellId episode → episode.length ≤ n) → |d - worst| ≤ 5 * u * n := by
  obtain ⟨d, hrun, ⟨episode, hepisode, hd⟩, hall⟩ := maxDrawdownFromEpisodes_measured round hpositive hmeasured
  refine ⟨d, hrun, fun n hn => abs_le.mpr ⟨?_, ?_⟩⟩
  · -- the episode of the greatest loss has a drawdown that is not much smaller
    obtain ⟨worst', -, hworst', own, hown, hlength, rfl⟩ := maxDrawdownFromEpisodes_exact hpositive hmeasured
    obtain rfl := hworst.unique hworst'
    obtain ⟨dd, hdd⟩ := Option.isSome_iff_exists.mp
      ((rebasedDrawdown_isSome round (levels lang own)).mpr (by rwa [levels, List.length_map]))
    have hnear := abs_rebasedDrawdown_sub_le hround hu (hpositive.levels_pos hown) hdd
    rw [levels, List.length_map, ← levels] at hnear
    have hle := hall own hown dd hdd
    linarith [(abs_le.mp hnear).1, error_le hround (hn own hown)]
  · -- and the episode of the drawdown has a loss that is not much smaller
    have hnear := abs_rebasedDrawdown_sub_le hround hu (hpositive.levels_pos hepisode) hd
    rw [levels, List.length_map, ← levels] at hnear
    have hle : maxDrawdown (levels lang episode) ≤ worst := by
      have hne : levels lang episode ≠ [] := by simpa [levels] using hepisode.nonempty
      exact hworst.2 ⟨episode, hepisode, (isGreatest_maxDrawdown hne).1⟩
    linarith [(abs_le.mp hnear).2, error_le hround (hn episode hepisode)]

/-- The drawdown of a cell is the greatest loss within one of its episodes: as it is in exact arithmetic, and up to a
few units of the last digit in decimal arithmetic. A cell whose episodes have one point each has none. Points outside
the cell have no part in it. -/
theorem episode_drawdown (lang : RegimeQuality.Language ℚ) (timeline : List TaggedPoint) (cellId : String)
    (hpositive : Positive lang timeline cellId) :
    (¬ Measured timeline cellId → maxDrawdownFromEpisodes (exact lang) timeline cellId = .ok none ∧
      maxDrawdownFromEpisodes (inContext lang) timeline cellId = .ok none) ∧
    (Measured timeline cellId → ∃ worst, IsGreatest (episodeLosses lang timeline cellId) worst ∧
      maxDrawdownFromEpisodes (exact lang) timeline cellId = .ok (some worst) ∧
      ∃ d, maxDrawdownFromEpisodes (inContext lang) timeline cellId = .ok (some d) ∧
        ∀ n : ℕ, (∀ episode, IsEpisode timeline cellId episode → episode.length ≤ n) → |d - worst| ≤ 25 / 10 ^ 28 * n) ∧
    ∀ timeline', List.Forall₂ (SameInside cellId) timeline timeline' →
      maxDrawdownFromEpisodes (exact lang) timeline' cellId = maxDrawdownFromEpisodes (exact lang) timeline cellId ∧
      maxDrawdownFromEpisodes (inContext lang) timeline' cellId =
        maxDrawdownFromEpisodes (inContext lang) timeline cellId := by
  refine ⟨fun hnone => ?_, fun hmeasured => ?_, fun timeline' hsame => ?_⟩
  · exact ⟨maxDrawdownFromEpisodes_unmeasured id hpositive hnone,
      maxDrawdownFromEpisodes_unmeasured canonicalDecimal hpositive hnone⟩
  · obtain ⟨worst, hrun, hworst, -⟩ := maxDrawdownFromEpisodes_exact hpositive hmeasured
    obtain ⟨d, hd, hnear⟩ :=
      maxDrawdownFromEpisodes_near Market.Models.rounds_decimalResult (by norm_num) hpositive hmeasured hworst
    refine ⟨worst, hworst, hrun, d, hd, fun n hn => (hnear n hn).trans_eq ?_⟩
    norm_num
  · exact ⟨maxDrawdownFromEpisodes_sameInside _ hsame, maxDrawdownFromEpisodes_sameInside _ hsame⟩

def bull (equity : String) : TaggedPoint := ⟨0, some "BULL|NORMAL_VOL", { equity := .string equity }⟩

def bear (equity : String) : TaggedPoint := ⟨0, some "BEAR|NORMAL_VOL", { equity := .string equity }⟩

def twoBulls : List TaggedPoint := [bull "10", bull "10", bear "1", bull "1", bull "0.5", bull "1"]

theorem episode_drawdown_twoBulls : ∃ worst,
    IsGreatest (episodeLosses sampleLanguage twoBulls "BULL|NORMAL_VOL") worst ∧
    maxDrawdownFromEpisodes (exact sampleLanguage) twoBulls "BULL|NORMAL_VOL" = .ok (some worst) := by
  have hpositive : Positive sampleLanguage twoBulls "BULL|NORMAL_VOL" := by decide +kernel
  have hfirst : IsEpisode ([bull "10", bull "10"] ++ bear "1" :: [bull "1", bull "0.5", bull "1"]) "BULL|NORMAL_VOL"
      [bull "10", bull "10"] :=
    (isRun_append_cons (by simp [bull]) (by simp [bear])).mpr (.inl ⟨rfl, by simp⟩)
  have hmeasured : Measured twoBulls "BULL|NORMAL_VOL" := ⟨_, hfirst, le_rfl⟩
  obtain ⟨-, hgreatest, -⟩ := episode_drawdown sampleLanguage twoBulls "BULL|NORMAL_VOL" hpositive
  obtain ⟨worst, hworst, hrun, -⟩ := hgreatest hmeasured
  exact ⟨worst, hworst, hrun⟩

theorem isGreatest_bulls {episode : List TaggedPoint} (hne : episode ≠ [])
    (hbull : ∀ point ∈ episode, point.cell = some "BULL|NORMAL_VOL") :
    IsGreatest (episodeLosses lang episode "BULL|NORMAL_VOL") (maxDrawdown (levels lang episode)) := by
  refine isGreatest_of_episodes ((isRun_of_all hbull).mpr ⟨rfl, hne⟩) fun other hother => ?_
  rw [((isRun_of_all hbull).mp hother).1]

/-- A lone point loses nothing, but has no drawdown; and a loss of a third is no decimal. -/
theorem drawdown_not_greatest_loss :
    (Positive sampleLanguage [bull "1"] "BULL|NORMAL_VOL" ∧
      IsGreatest (episodeLosses sampleLanguage [bull "1"] "BULL|NORMAL_VOL") 0 ∧
      maxDrawdownFromEpisodes (exact sampleLanguage) [bull "1"] "BULL|NORMAL_VOL" = .ok none) ∧
    Positive sampleLanguage [bull "0.3", bull "0.2"] "BULL|NORMAL_VOL" ∧
    IsGreatest (episodeLosses sampleLanguage [bull "0.3", bull "0.2"] "BULL|NORMAL_VOL") (1 / 3) ∧
    maxDrawdownFromEpisodes (inContext sampleLanguage) [bull "0.3", bull "0.2"] "BULL|NORMAL_VOL" ≠
      .ok (some (1 / 3)) := by
  have hlone : maxDrawdown (levels sampleLanguage [bull "1"]) = 0 := by decide +kernel
  have hthird : maxDrawdown (levels sampleLanguage [bull "0.3", bull "0.2"]) = 1 / 3 := by decide +kernel
  refine ⟨⟨by decide +kernel, hlone ▸ isGreatest_bulls (by simp) (by simp [bull]), rfl⟩, by decide +kernel,
    hthird ▸ isGreatest_bulls (by simp) (by simp [bull]), fun h => ?_⟩
  have hdecimal := congrArg Except.toOption h
  revert hdecimal
  decide +kernel

end Losses

end TradingBot.Research.EpisodeDrawdown
