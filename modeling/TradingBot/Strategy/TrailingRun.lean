import TradingBot.Strategy.Stops

namespace TradingBot.Strategy.TrailingRun

open Market.Models Strategy.Models Strategy.Stops Exceptions Library.Outcome Library.Truncation

section Runs

def runTrailing (params : StrategyParameters) (tick : Decimal) :
    TrailingStopState → List (Decimal × Decimal) → Except Exc (List TrailingStopState)
  | state, [] => .ok [state]
  | state, (close, atr) :: updates => do
    let updated ← updateTrailingStop state close atr params (some tick)
    let states ← runTrailing params tick updated updates
    pure (state :: states)

/-- Neither the highest close nor a stop falls. -/
structure NotLower (a b : TrailingStopState) : Prop where
  highestClose : a.highestClose ≤ b.highestClose
  trailStop : a.trailStop ≤ b.trailStop
  effectiveStop : a.effectiveStop ≤ b.effectiveStop

theorem NotLower.trans {a b c : TrailingStopState} (h : NotLower a b) (h' : NotLower b c) : NotLower a c :=
  ⟨h.highestClose.trans h'.highestClose, h.trailStop.trans h'.trailStop, h.effectiveStop.trans h'.effectiveStop⟩

/-- The trail lies on the tick grid, and the effective stop is the higher of the two stops. -/
structure Settled (tick stopInitial : Decimal) (s : TrailingStopState) : Prop where
  initial : s.stopInitial = stopInitial
  onTick : OnStep tick s.trailStop
  effectiveStop : s.effectiveStop = max stopInitial s.trailStop

theorem Settled.initial_le {tick stopInitial : Decimal} {s : TrailingStopState} (h : Settled tick stopInitial s) :
    stopInitial ≤ s.effectiveStop := by
  rw [h.effectiveStop]
  exact le_max_left _ _

structure Below (tick : Decimal) (s : TrailingStopState) : Prop where
  positive : 0 < s.highestClose
  initial : toStep tick s.stopInitial ≤ s.trailStop
  below : s.trailStop < s.highestClose

variable {params : StrategyParameters} {tick stopInitial : Decimal} {state updated : TrailingStopState}
  {updates : List (Decimal × Decimal)} {states : List TrailingStopState}

theorem updateTrailingStop_trail (htick : 0 < tick) (hsettled : Settled tick stopInitial state)
    {close atr : Decimal} (h : updateTrailingStop state close atr params (some tick) = .ok updated) :
    updated.stopInitial = state.stopInitial ∧ updated.highestClose = max state.highestClose close ∧
      updated.trailStop = max (max state.trailStop
        (toStep tick (max state.highestClose close - params.trailAtrMult * atr))) (toStep tick stopInitial) ∧
      updated.effectiveStop = max updated.stopInitial updated.trailStop := by
  rw [updateTrailingStop_ok htick] at h
  cases h
  refine ⟨rfl, rfl, ?_, rfl⟩
  dsimp only
  rw [toStep_max htick, toStep_max htick, hsettled.onTick.toStep_eq htick, hsettled.initial]

theorem updateTrailingStop_settled (htick : 0 < tick) (hsettled : Settled tick stopInitial state)
    {close atr : Decimal} (h : updateTrailingStop state close atr params (some tick) = .ok updated) :
    Settled tick stopInitial updated ∧ NotLower state updated := by
  obtain ⟨hinitial, hhighest, htrail, heffective⟩ := updateTrailingStop_trail htick hsettled h
  have hle : state.trailStop ≤ updated.trailStop := by
    rw [htrail, max_assoc]
    exact le_max_left _ _
  refine ⟨⟨hinitial.trans hsettled.initial, ?_, ?_⟩, ⟨?_, hle, ?_⟩⟩
  · rw [updateTrailingStop_ok htick] at h
    cases h
    exact onStep_toStep _ _
  · rw [heffective, hinitial, hsettled.initial]
  · rw [hhighest]
    exact le_max_left _ _
  · rw [heffective, hinitial, hsettled.effectiveStop, hsettled.initial]
    exact max_le_max_left _ hle

theorem updateTrailingStop_below (htick : 0 < tick) (hmult : 0 < params.trailAtrMult)
    (hsettled : Settled tick stopInitial state) (hbelow : Below tick state) {close atr : Decimal} (hatr : 0 < atr)
    (h : updateTrailingStop state close atr params (some tick) = .ok updated) : Below tick updated := by
  obtain ⟨hinitial, hhighest, htrail, _⟩ := updateTrailingStop_trail htick hsettled h
  have hpositive : 0 < updated.highestClose := by
    rw [hhighest]
    exact lt_max_of_lt_left hbelow.positive
  have hfloor := hbelow.initial
  rw [hsettled.initial] at hfloor
  have hcandidate : toStep tick (max state.highestClose close - params.trailAtrMult * atr) <
      updated.highestClose := by
    refine toStep_lt htick hpositive ?_
    rw [hhighest]
    exact sub_lt_self _ (mul_pos hmult hatr)
  have htrailBelow : state.trailStop < updated.highestClose := by
    rw [hhighest]
    exact lt_max_of_lt_left hbelow.below
  refine ⟨hpositive, ?_, ?_⟩
  · rw [hinitial, hsettled.initial, htrail]
    exact le_max_right _ _
  · rw [htrail]
    exact max_lt (max_lt htrailBelow hcandidate) (hfloor.trans_lt htrailBelow)

theorem runTrailing_settled (htick : 0 < tick) (hsettled : Settled tick stopInitial state)
    (updates : List (Decimal × Decimal)) :
    ∃ states, runTrailing params tick state updates = .ok states ∧ states.length = updates.length + 1 ∧
      states.head? = some state ∧ states.Pairwise NotLower ∧ ∀ s ∈ states, Settled tick stopInitial s := by
  induction updates generalizing state with
  | nil => exact ⟨[state], rfl, rfl, rfl, by simp, by simpa using hsettled⟩
  | cons update updates ih =>
    obtain ⟨close, atr⟩ := update
    obtain ⟨updated, hupdated⟩ : ∃ updated, updateTrailingStop state close atr params (some tick) = .ok updated :=
      ⟨_, updateTrailingStop_ok htick ..⟩
    obtain ⟨hnext, hlower⟩ := updateTrailingStop_settled htick hsettled hupdated
    obtain ⟨states, hstates, hlength, hhead, hpairwise, hall⟩ := ih hnext
    refine ⟨state :: states, ?_, by simp [hlength], rfl, List.pairwise_cons.mpr ⟨fun s hs => ?_, hpairwise⟩, ?_⟩
    · exact except_bind_eq_ok.mpr ⟨_, hupdated, except_bind_eq_ok.mpr ⟨_, hstates, rfl⟩⟩
    · cases states with
      | nil => cases hs
      | cons first rest =>
        obtain rfl := Option.some.inj hhead
        rcases List.mem_cons.mp hs with rfl | hs
        · exact hlower
        · exact hlower.trans (List.rel_of_pairwise_cons hpairwise hs)
    · exact List.forall_mem_cons.mpr ⟨hsettled, hall⟩

theorem runTrailing_below (htick : 0 < tick) (hmult : 0 < params.trailAtrMult)
    (hsettled : Settled tick stopInitial state) (hbelow : Below tick state)
    (hupdates : ∀ u ∈ updates, 0 < u.2) (h : runTrailing params tick state updates = .ok states) :
    ∀ s ∈ states, s.trailStop < s.highestClose := by
  induction updates generalizing state states with
  | nil =>
    cases h
    simpa using hbelow.below
  | cons update updates ih =>
    obtain ⟨hatr, hupdates⟩ := List.forall_mem_cons.mp hupdates
    obtain ⟨updated, hupdated, h⟩ := except_bind_eq_ok.mp h
    obtain ⟨later, hlater, h⟩ := except_bind_eq_ok.mp h
    cases h
    refine List.forall_mem_cons.mpr ⟨hbelow.below, ih ?_ ?_ hupdates hlater⟩
    · exact (updateTrailingStop_settled htick hsettled hupdated).1
    · exact updateTrailingStop_below htick hmult hsettled hbelow hatr hupdated

end Runs

section Entry

variable {params : StrategyParameters} {tick entryPrice atr stopInitial : Decimal} {state : TrailingStopState}

theorem initializeTrailingStop_eq (htick : 0 < tick) :
    initializeTrailingStop entryPrice atr stopInitial params (some tick) = .ok
      { entryPrice, stopInitial, highestClose := entryPrice
        trailStop := toStep tick (max (entryPrice - params.trailAtrMult * atr) stopInitial)
        effectiveStop := max stopInitial
          (toStep tick (max (entryPrice - params.trailAtrMult * atr) stopInitial)) } := by
  simp [initializeTrailingStop, roundIfTick, roundToTick_of_pos htick, bind, Except.bind, pure, Except.pure]

theorem initializeTrailingStop_settled (htick : 0 < tick)
    (h : initializeTrailingStop entryPrice atr stopInitial params (some tick) = .ok state) :
    Settled tick stopInitial state ∧ state.highestClose = entryPrice ∧ toStep tick stopInitial ≤ state.trailStop := by
  rw [initializeTrailingStop_eq htick] at h
  cases h
  exact ⟨⟨rfl, onStep_toStep _ _, rfl⟩, rfl, toStep_mono htick (le_max_right _ _)⟩

theorem exists_reached_of_mult (htick : 0 < tick) (hmult : params.trailAtrMult ≤ 0) : ∃ close updated,
      updateTrailingStop state close 1 params (some tick) = .ok updated ∧ updated.highestClose ≤ updated.trailStop := by
  obtain ⟨n, hn⟩ : ∃ n : ℤ, state.highestClose / tick ≤ n := ⟨_, Int.le_ceil _⟩
  refine ⟨n * tick, _, updateTrailingStop_ok htick .., ?_⟩
  have hhighest : max state.highestClose (n * tick) = n * tick := max_eq_right ((div_le_iff₀ htick).mp hn)
  have hgrid : OnStep tick ((n : Decimal) * tick) := ⟨n, rfl⟩
  dsimp only
  rw [hhighest]
  calc (n : Decimal) * tick = toStep tick (n * tick) := (hgrid.toStep_eq htick).symm
    _ ≤ toStep tick (n * tick - params.trailAtrMult * 1) := by
      refine toStep_mono htick ?_
      rw [mul_one]
      linarith
    _ ≤ _ := toStep_mono htick ((le_max_right _ _).trans (le_max_left _ _))

theorem exists_reached_of_price (htick : 0 < tick) (hmult : 0 < params.trailAtrMult)
    (hprice : state.highestClose ≤ 0) : ∃ atr updated, 0 < atr ∧
      updateTrailingStop state state.highestClose atr params (some tick) = .ok updated ∧
      updated.highestClose ≤ updated.trailStop := by
  obtain ⟨ε, hε, hle⟩ := exists_le_toStep_sub htick hprice
  refine ⟨ε / params.trailAtrMult, _, div_pos hε hmult, updateTrailingStop_ok htick .., ?_⟩
  dsimp only
  rw [max_self, mul_div_cancel₀ _ hmult.ne']
  exact hle.trans (toStep_mono htick ((le_max_right _ _).trans (le_max_left _ _)))

end Entry

end TradingBot.Strategy.TrailingRun
