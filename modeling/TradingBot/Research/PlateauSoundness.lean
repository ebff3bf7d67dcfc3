import TradingBot.Research.ParameterArea

namespace TradingBot.Research.PlateauSoundness

open Market.Models Library.Dictionary Library.Outcome Library.Runs Research.ParameterArea

section Labels

variable {policy : ParameterAreaPolicy} {e e' : AreaEvidence}

/-- What both stable labels ask for. -/
def Plateau (policy : ParameterAreaPolicy) (e : AreaEvidence) : Prop :=
  policy.minCompleteNeighbors ≤ e.nCompleteNeighbors ∧ e.frozenStable = true ∧ e.anyStableNeighbor = true ∧
    ¬ (e.steepestDrop.any (policy.steepDropWarn < ·) = true ∧ e.stableShare < policy.narrowMinStableShare) ∧
    e.plateauIncludesFrozen = true ∧ policy.narrowMinContiguous ≤ e.plateauSize

def BroadSupport (policy : ParameterAreaPolicy) (e : AreaEvidence) : Prop :=
  policy.broadMinContiguous ≤ e.plateauSize ∧ policy.broadMinStableShare ≤ e.stableShare ∧
    e.gatesAvailable = true ∧ e.gatePassShare.any (policy.broadMinGatePassShare ≤ ·) = true

instance (policy : ParameterAreaPolicy) (e : AreaEvidence) : Decidable (BroadSupport policy e) :=
  inferInstanceAs (Decidable (_ ∧ _))

theorem classify_insufficient (h : (e.nCompleteNeighbors : ℤ) < policy.minCompleteNeighbors) :
    (classifyParameterArea policy e).1 = .insufficientEvidence := by
  rw [classifyParameterArea, if_pos h]

theorem classify_weak (hmin : policy.minCompleteNeighbors ≤ (e.nCompleteNeighbors : ℤ)) (h : ¬ Plateau policy e) :
    (classifyParameterArea policy e).1 = .isolatedPeak ∨ (classifyParameterArea policy e).1 = .unstable := by
  rw [classifyParameterArea, if_neg (not_lt.mpr hmin)]
  cases hfrozen : e.frozenStable with
  | false => cases e.anyStableNeighbor <;> simp
  | true =>
    cases hany : e.anyStableNeighbor with
    | false => simp
    | true =>
      by_cases hsteep : e.steepestDrop.any (policy.steepDropWarn < ·) = true ∧ e.stableShare < policy.narrowMinStableShare
      · simp [hsteep]
      · have hshort : (!e.plateauIncludesFrozen) = true ∨ (e.plateauSize : ℤ) < policy.narrowMinContiguous := by
          by_contra hnot
          rw [not_or, not_lt, Bool.not_eq_true', Bool.not_eq_false] at hnot
          exact h ⟨hmin, hfrozen, hany, hsteep, hnot⟩
        simp only [Bool.not_true, Bool.false_eq_true, Bool.and_false, if_false]
        rw [if_neg hsteep, if_pos hshort]
        simp

theorem classify_plateau (h : Plateau policy e) : (classifyParameterArea policy e).1 =
    if BroadSupport policy e then .broadStablePlateau
    else if policy.narrowMinStableShare ≤ e.stableShare then .narrowStableArea else .unstable := by
  obtain ⟨hmin, hfrozen, hany, hsteep, hincludes, hsize⟩ := h
  have hlong : ¬ ((!e.plateauIncludesFrozen) = true ∨ (e.plateauSize : ℤ) < policy.narrowMinContiguous) := by
    rw [hincludes, not_or, not_lt]
    exact ⟨by decide, hsize⟩
  have hbroad : (policy.broadMinContiguous ≤ e.plateauSize ∧ e.plateauIncludesFrozen = true ∧ e.frozenStable = true ∧
      policy.broadMinStableShare ≤ e.stableShare ∧ e.gatesAvailable = true ∧
      e.gatePassShare.any (policy.broadMinGatePassShare ≤ ·) = true) ↔ BroadSupport policy e := by
    simp only [BroadSupport, hincludes, hfrozen, true_and]
  simp only [classifyParameterArea, hbroad, if_neg (not_lt.mpr hmin), if_neg hsteep, if_neg hlong]
  simp only [hfrozen, hany, hincludes, hsize, Bool.not_true, Bool.and_false, Bool.false_eq_true, if_false, true_and]
  by_cases hb : BroadSupport policy e
  · rw [if_pos hb, if_pos hb]
  · rw [if_neg hb, if_neg hb]
    by_cases hshare : policy.narrowMinStableShare ≤ e.stableShare
    · rw [if_pos hshare, if_pos hshare]
    · rw [if_neg hshare, if_neg hshare, if_pos (not_le.mp hshare)]

/-- The second evidence is at least as good as the first one. -/
structure AtLeast (e e' : AreaEvidence) : Prop where
  complete : e'.nCompleteNeighbors = e.nCompleteNeighbors
  frozenStable : e'.frozenStable = e.frozenStable
  share : e.stableShare ≤ e'.stableShare
  gates : e.gatesAvailable = true → e'.gatesAvailable = true
  gateShare : ∀ share, e.gatePassShare = some share → ∃ share', e'.gatePassShare = some share' ∧ share ≤ share'
  size : e.plateauSize ≤ e'.plateauSize
  includes : e.plateauIncludesFrozen = true → e'.plateauIncludesFrozen = true
  anyStable : e.anyStableNeighbor = true → e'.anyStableNeighbor = true
  steepest : ∀ drop', e'.steepestDrop = some drop' → ∃ drop, e.steepestDrop = some drop ∧ drop' ≤ drop

theorem AtLeast.plateau (h : AtLeast e e') (hplateau : Plateau policy e) : Plateau policy e' := by
  obtain ⟨hmin, hfrozen, hany, hsteep, hincludes, hsize⟩ := hplateau
  refine ⟨by rwa [h.complete], by rwa [h.frozenStable], h.anyStable hany, ?_, h.includes hincludes,
    hsize.trans (Int.ofNat_le.mpr h.size)⟩
  rintro ⟨hdrop, hshare⟩
  obtain ⟨drop', hdrop', hwarn⟩ := (Option.any_eq_true _ _).mp hdrop
  obtain ⟨drop, hdrop, hle⟩ := h.steepest drop' hdrop'
  have hless := (of_decide_eq_true hwarn).trans_le hle
  exact hsteep ⟨(Option.any_eq_true _ _).mpr ⟨drop, hdrop, decide_eq_true hless⟩, h.share.trans_lt hshare⟩

theorem AtLeast.broadSupport (h : AtLeast e e') (hbroad : BroadSupport policy e) : BroadSupport policy e' := by
  obtain ⟨hsize, hshare, hgates, hgateShare⟩ := hbroad
  refine ⟨hsize.trans (Int.ofNat_le.mpr h.size), hshare.trans h.share, h.gates hgates, ?_⟩
  obtain ⟨share, hsome, hle⟩ := (Option.any_eq_true _ _).mp hgateShare
  obtain ⟨share', hsome', hle'⟩ := h.gateShare share hsome
  exact (Option.any_eq_true _ _).mpr ⟨share', hsome', decide_eq_true ((of_decide_eq_true hle).trans hle')⟩

theorem plateau_of_label (h : (classifyParameterArea policy e).1 = .narrowStableArea ∨
    (classifyParameterArea policy e).1 = .broadStablePlateau) : Plateau policy e := by
  by_contra hplateau
  by_cases hmin : policy.minCompleteNeighbors ≤ (e.nCompleteNeighbors : ℤ)
  · cases classify_weak hmin hplateau with
    | inl hlabel => simp [hlabel] at h
    | inr hlabel => simp [hlabel] at h
  · simp [classify_insufficient (not_le.mp hmin)] at h

theorem share_of_narrow (h : (classifyParameterArea policy e).1 = .narrowStableArea) :
    policy.narrowMinStableShare ≤ e.stableShare := by
  rw [classify_plateau (plateau_of_label (.inl h))] at h
  split_ifs at h with _ hshare
  exact hshare

theorem support_of_broad (h : (classifyParameterArea policy e).1 = .broadStablePlateau) : BroadSupport policy e := by
  rw [classify_plateau (plateau_of_label (.inr h))] at h
  split_ifs at h with hbroad _
  exact hbroad

theorem classify_mono (policy : ParameterAreaPolicy) (h : AtLeast e e') :
    (classifyParameterArea policy e).1.rank ≤ (classifyParameterArea policy e').1.rank := by
  by_cases hmin : policy.minCompleteNeighbors ≤ (e.nCompleteNeighbors : ℤ)
  · have hmin' : policy.minCompleteNeighbors ≤ (e'.nCompleteNeighbors : ℤ) := by rwa [h.complete]
    have hranked : 1 ≤ (classifyParameterArea policy e').1.rank := by
      by_cases hplateau : Plateau policy e'
      · rw [classify_plateau hplateau]
        split_ifs <;> decide
      · cases classify_weak hmin' hplateau with
        | inl hlabel => rw [hlabel]; decide
        | inr hlabel => rw [hlabel]; decide
    by_cases hplateau : Plateau policy e
    · rw [classify_plateau hplateau] at *
      rw [classify_plateau (h.plateau hplateau)] at *
      by_cases hbroad : BroadSupport policy e
      · rw [if_pos hbroad, if_pos (h.broadSupport hbroad)]
      · rw [if_neg hbroad]
        by_cases hshare : policy.narrowMinStableShare ≤ e.stableShare
        · rw [if_pos hshare, if_pos (hshare.trans h.share)]
          split_ifs <;> decide
        · rw [if_neg hshare]
          exact hranked
    · cases classify_weak hmin hplateau with
      | inl hlabel => rw [hlabel]; exact hranked
      | inr hlabel => rw [hlabel]; exact hranked
  · rw [classify_insufficient (not_le.mp hmin)]
    exact Nat.zero_le _

end Labels

section Shares

variable {V : Type} {rows rows' : List (EvaluatedNeighbor V)}

/-- A child that does at least as well as another one in its place. -/
structure Improved (row row' : EvaluatedNeighbor V) : Prop where
  childId : row'.childId = row.childId
  parameters : row'.parameters = row.parameters
  status : row'.status = row.status
  net : Option.Rel (· ≤ ·) row.netPnl row'.netPnl
  gatePass : row'.gatePass = row.gatePass ∨ row.gatePass = none ∨ row'.gatePass = some true
  stable : row.stable = true → row'.stable = true

theorem Improved.refl (row : EvaluatedNeighbor V) : Improved row row where
  childId := rfl
  parameters := rfl
  status := rfl
  net := by
    cases row.netPnl with
    | none => exact Option.Rel.none
    | some net => exact Option.Rel.some le_rfl
  gatePass := .inl rfl
  stable := id

theorem Improved.gateKnown {row row' : EvaluatedNeighbor V} (h : Improved row row')
    (hknown : row.gatePass.isSome = true) : row'.gatePass.isSome = true := by
  obtain hsame | hnone | hpass := h.gatePass
  · rwa [hsame]
  · rw [hnone] at hknown
    cases hknown
  · rw [hpass]
    rfl

theorem Improved.gatePasses {row row' : EvaluatedNeighbor V} (h : Improved row row')
    (hpass : row.gatePass = some true) : row'.gatePass = some true := by
  obtain hsame | hnone | hpass' := h.gatePass
  · rw [hsame, hpass]
  · rw [hnone] at hpass
    cases hpass
  · exact hpass'

theorem improved_complete (h : List.Forall₂ Improved rows rows') :
    List.Forall₂ Improved (completeNeighbors rows) (completeNeighbors rows') :=
  forall₂_filter h fun row row' hrow => by rw [hrow.status]

theorem completeShare_le {p : EvaluatedNeighbor V → Bool} (h : List.Forall₂ Improved rows rows')
    (hp : ∀ row row', Improved row row' → p row = true → p row' = true) :
    completeShare p rows ≤ completeShare p rows' := by
  have hcomplete := improved_complete h
  have hcount : ((completeNeighbors rows).countP p : ℚ) ≤ (completeNeighbors rows').countP p := by
    exact_mod_cast countP_le hcomplete hp
  rw [completeShare, completeShare, hcomplete.length_eq]
  split_ifs
  · exact le_rfl
  · exact div_le_div_of_nonneg_right hcount (Nat.cast_nonneg _)

theorem gatesAvailable_mono (h : List.Forall₂ Improved rows rows') (havailable : gatesAvailable rows = true) :
    gatesAvailable rows' = true := by
  have hcomplete := improved_complete h
  have hcount := countP_le hcomplete (p := fun row => row.gatePass.isSome) (q := fun row => row.gatePass.isSome)
    fun row row' hrow => hrow.gateKnown
  have hbound := List.countP_le_length (p := fun row => row.gatePass.isSome) (l := completeNeighbors rows')
  have hlength := hcomplete.length_eq
  rw [gatesAvailable, decide_eq_true_iff] at *
  omega

theorem gatePassShare_le (h : List.Forall₂ Improved rows rows') {share : Decimal}
    (hshare : gatePassShare rows = some share) :
    ∃ share', gatePassShare rows' = some share' ∧ share ≤ share' := by
  rw [gatePassShare] at hshare
  split_ifs at hshare with havailable
  cases hshare
  refine ⟨_, by rw [gatePassShare, if_pos (gatesAvailable_mono h havailable)], completeShare_le h ?_⟩
  intro row row' hrow hpass
  exact decide_eq_true (hrow.gatePasses (of_decide_eq_true hpass))

theorem netsPresent_le (h : List.Forall₂ Improved rows rows') :
    List.Forall₂ (· ≤ ·) (netsPresent rows) (netsPresent rows') :=
  List.rel_filterMap (fun _ _ hrow => Improved.net hrow) (improved_complete h)

def DropLe (drop drop' : Option Decimal) : Prop := Option.Rel (fun d d' => d' ≤ d) drop drop'

theorem steeper_le {net frozenNet net' : Decimal} {drop drop' : Option Decimal} (hdrop : DropLe drop drop')
    (hnet : net ≤ net') : DropLe (steeper frozenNet drop net) (steeper frozenNet drop' net') := by
  cases hdrop with
  | none => exact Option.Rel.some (by linarith)
  | @some d d' hd =>
    simp only [steeper]
    split_ifs <;> exact Option.Rel.some (by linarith)

theorem steepestDrop_le (frozenNet : Option Decimal) {nets nets' : List Decimal} (h : List.Forall₂ (· ≤ ·) nets nets') :
    DropLe (steepestDrop frozenNet nets) (steepestDrop frozenNet nets') := by
  cases frozenNet with
  | none => exact Option.Rel.none
  | some net =>
    suffices hfold : ∀ drop drop', DropLe drop drop' →
        DropLe (nets.foldl (steeper net) drop) (nets'.foldl (steeper net) drop') from hfold none none Option.Rel.none
    induction h with
    | nil => exact fun drop drop' hdrop => hdrop
    | cons hnet _ ih => exact fun drop drop' hdrop => ih _ _ (steeper_le hdrop hnet)

end Shares

section Plateaus

variable {points points' : List AxisPoint} {byAxis byAxis' : List (String × List AxisPoint)}

def PointLe (p p' : AxisPoint) : Prop :=
  p.childId = p'.childId ∧ p.value = p'.value ∧ (p.stable = true → p'.stable = true)

theorem contiguous_le (h : List.Forall₂ PointLe points points') (frozenChildId : String) :
    contiguousStableThroughFrozen points frozenChildId ≤ contiguousStableThroughFrozen points' frozenChildId := by
  apply runThrough_le h
  · intro p p' hp
    rw [hp.1]
  · exact fun p p' hp => hp.2.2

theorem axisRuns_le (h : List.Forall₂ (RelatedEntry (List.Forall₂ PointLe)) byAxis byAxis') (frozenChildId : String) :
    List.Forall₂ (RelatedEntry (· ≤ ·)) (axisRuns byAxis frozenChildId) (axisRuns byAxis' frozenChildId) := by
  have hsorted := forall₂_insertionSort (r := fun e e' => e.1 ≤ e'.1) (s := fun e e' => e.1 ≤ e'.1)
    (fun e d e' d' he he' => by rw [he.1, he'.1]) h
  rw [axisRuns, axisRuns, List.forall₂_map_left_iff, List.forall₂_map_right_iff]
  exact hsorted.imp fun e e' he => ⟨he.1, contiguous_le he.2 frozenChildId⟩

theorem le_max?_getD {l : List ℕ} {n : ℕ} (h : n ∈ l) : n ≤ l.max?.getD 0 := by
  cases hmax : l.max? with
  | none =>
    rw [List.max?_eq_none_iff.mp hmax] at h
    cases h
  | some m => exact (List.max?_eq_some_iff.mp hmax).2 n h

theorem max?_getD_mem {l : List ℕ} (h : 0 < l.max?.getD 0) : l.max?.getD 0 ∈ l := by
  cases hmax : l.max? with
  | none => simp [hmax] at h
  | some m => exact (List.max?_eq_some_iff.mp hmax).1

theorem measured_le (h : List.Forall₂ (RelatedEntry (List.Forall₂ PointLe)) byAxis byAxis') (frozenChildId : String) :
    (measureContiguousRegions byAxis frozenChildId).plateauSize ≤
      (measureContiguousRegions byAxis' frozenChildId).plateauSize := by
  have hruns := axisRuns_le h frozenChildId
  simp only [measureContiguousRegions]
  by_cases hzero : ((axisRuns byAxis frozenChildId).map Prod.snd).max?.getD 0 = 0
  · rw [hzero]
    exact Nat.zero_le _
  · obtain ⟨run, hrun, hsize⟩ := List.mem_map.mp (max?_getD_mem (Nat.pos_of_ne_zero hzero))
    obtain ⟨run', hrun', _, hle⟩ := exists_related hruns hrun
    rw [← hsize]
    exact hle.trans (le_max?_getD (List.mem_map.mpr ⟨run', hrun', rfl⟩))

theorem includes_iff (frozenStable : Bool) (byAxis : List (String × List AxisPoint)) :
    (plateauRegion frozenStable byAxis).plateauIncludesFrozen = true ↔
      0 < (plateauRegion frozenStable byAxis).plateauSize := by
  simp only [plateauRegion]
  split_ifs
  · simp
  · simp [measureContiguousRegions]

theorem plateauRegion_le (h : List.Forall₂ (RelatedEntry (List.Forall₂ PointLe)) byAxis byAxis') (frozenStable : Bool) :
    (plateauRegion frozenStable byAxis).plateauSize ≤ (plateauRegion frozenStable byAxis').plateauSize := by
  have hmeasured := measured_le h "frozen"
  cases h with
  | nil => exact le_rfl
  | cons hfirst hrest =>
    rw [plateauRegion, plateauRegion, if_neg (by simp), if_neg (by simp)]
    exact hmeasured

end Plateaus

section Evidence

variable {V : Type} {rows rows' : List (EvaluatedNeighbor V)} {byAxis byAxis' : List (String × List AxisPoint)}

theorem evidence_atLeast (frozen : EvaluatedNeighbor V) (hrows : List.Forall₂ Improved rows rows')
    (hpoints : List.Forall₂ (RelatedEntry (List.Forall₂ PointLe)) byAxis byAxis') :
    AtLeast (areaEvidence frozen rows byAxis) (areaEvidence frozen rows' byAxis') where
  complete := (improved_complete hrows).length_eq.symm
  frozenStable := rfl
  share := completeShare_le hrows fun _ _ hrow => hrow.stable
  gates := gatesAvailable_mono hrows
  gateShare := fun _ hshare => gatePassShare_le hrows hshare
  size := plateauRegion_le hpoints frozen.stable
  includes := by
    have hsize := plateauRegion_le hpoints frozen.stable
    simp only [areaEvidence, Bool.or_eq_true, Bool.and_eq_true, decide_eq_true_iff, includes_iff]
    rintro (hpos | ⟨hpos, _⟩)
    · exact .inl (hpos.trans_le hsize)
    · exact .inl (hpos.trans_le hsize)
  anyStable := by
    simp only [areaEvidence, List.any_eq_true]
    rintro ⟨row, hmem, hstable⟩
    obtain ⟨row', hmem', hrow⟩ := exists_related (improved_complete hrows) hmem
    exact ⟨row', hmem', hrow.stable hstable⟩
  steepest := by
    intro drop' hdrop'
    have hle := steepestDrop_le frozen.netPnl (netsPresent_le hrows)
    change steepestDrop frozen.netPnl (netsPresent rows') = some drop' at hdrop'
    change ∃ drop, steepestDrop frozen.netPnl (netsPresent rows) = some drop ∧ drop' ≤ drop
    rw [DropLe, hdrop'] at hle
    generalize steepestDrop frozen.netPnl (netsPresent rows) = drops at hle ⊢
    cases hle with
    | some hd => exact ⟨_, rfl, hd⟩

end Evidence

section Raising

variable {V : Type} {policy : ParameterAreaPolicy} {requireGate : Bool}

structure Raised (policy : ParameterAreaPolicy) (requireGate : Bool) (obs obs' : NeighborObservation V) : Prop where
  neighbor : obs.childId ≠ "frozen"
  same : obs' = { obs with netPnl := obs'.netPnl, gatePass := obs'.gatePass }
  net : ∃ x y, optionalDec obs.netPnl = .ok (some x) ∧ optionalDec obs'.netPnl = .ok (some y) ∧ x ≤ y
  gatePass : obs'.gatePass = obs.gatePass ∨ obs.gatePass = none ∨ obs'.gatePass = some true
  stable : ∃ row', evaluateNeighbor policy requireGate obs' = .ok row' ∧ row'.stable = true

theorem evaluate_raised {obs obs' : NeighborObservation V} {row : EvaluatedNeighbor V}
    (h : Raised policy requireGate obs obs') (hrow : evaluateNeighbor policy requireGate obs = .ok row) :
    ∃ row', evaluateNeighbor policy requireGate obs' = .ok row' ∧ Improved row row' := by
  obtain ⟨x, y, hx, hy, hle⟩ := h.net
  obtain ⟨row', hrow', hstable⟩ := h.stable
  refine ⟨row', hrow', ?_⟩
  have hsame := h.same
  have hgate := h.gatePass
  simp only [evaluateNeighbor, hx, except_ok_bind] at hrow
  simp only [evaluateNeighbor, hy, except_ok_bind] at hrow'
  obtain ⟨costs, hcosts, hrow⟩ := except_bind_eq_ok.mp hrow
  obtain ⟨costs', hcosts', hrow'⟩ := except_bind_eq_ok.mp hrow'
  cases hrow
  cases hrow'
  exact
    { childId := by rw [hsame]
      parameters := by rw [hsame]
      status := by rw [hsame]
      net := Option.Rel.some hle
      gatePass := hgate
      stable := fun _ => hstable }

end Raising

section Simulation

variable {V : Type} [BEq V] {str : V → String} {row row' : EvaluatedNeighbor V}

omit [BEq V] in
theorem axisPoint_simulates {axis : String} (h : Improved row row') {p : AxisPoint} (hp : axisPoint str axis row = .ok p) :
    ∃ p', axisPoint str axis row' = .ok p' ∧ PointLe p p' := by
  obtain ⟨value, hvalue, rfl⟩ := except_map_eq_ok.mp hp
  refine ⟨⟨row'.childId, axis, value, row'.stable⟩, ?_, h.childId.symm, rfl, h.stable⟩
  rw [axisPoint, axisValue, h.parameters]
  rw [axisValue] at hvalue
  rw [hvalue]
  rfl

theorem addNeighbor_simulates {frozenParameters : Dict String V} {d d' c : Dict String (List AxisPoint)}
    (h : Improved row row') (hd : d.Related (List.Forall₂ PointLe) d')
    (hc : addNeighbor str frozenParameters d row = .ok c) :
    ∃ c', addNeighbor str frozenParameters d' row' = .ok c' ∧ c.Related (List.Forall₂ PointLe) c' := by
  simp only [addNeighbor, h.parameters] at hc ⊢
  cases hchanged : changedAxes str frozenParameters row.parameters with
  | nil =>
    rw [hchanged] at hc
    cases hc
    exact ⟨d', rfl, hd⟩
  | cons axis more =>
    rw [hchanged] at hc
    cases more with
    | cons _ _ =>
      cases hc
      exact ⟨d', rfl, hd⟩
    | nil =>
      obtain ⟨p, hp, hc⟩ := except_bind_eq_ok.mp hc
      cases hc
      obtain ⟨p', hp', hpp'⟩ := axisPoint_simulates h hp
      refine ⟨_, by dsimp only; rw [hp']; rfl, hd.set axis ?_⟩
      have hold := hd.get? axis
      generalize d.get? axis = old at hold ⊢
      generalize d'.get? axis = old' at hold ⊢
      cases hold with
      | none => exact List.Forall₂.cons hpp' List.Forall₂.nil
      | some hold => exact List.rel_append hold (List.Forall₂.cons hpp' List.Forall₂.nil)

theorem joinFrozen_simulates {points points' : List AxisPoint} (h : List.Forall₂ PointLe points points') (p : AxisPoint) :
    List.Forall₂ PointLe (joinFrozen points p) (joinFrozen points' p) := by
  have hsame : points.any (fun q => q.childId = p.childId) = points'.any (fun q => q.childId = p.childId) := by
    induction h with
    | nil => rfl
    | cons hq _ ih => rw [List.any_cons, List.any_cons, hq.1, ih]
  rw [joinFrozen, joinFrozen, hsame]
  by_cases hany : points'.any fun q => q.childId = p.childId
  · rw [if_pos hany, if_pos hany]
    exact h
  · rw [if_neg hany, if_neg hany]
    exact List.rel_append h (List.Forall₂.cons ⟨rfl, rfl, id⟩ List.Forall₂.nil)

omit [BEq V] in
theorem addFrozen_simulates {frozen : EvaluatedNeighbor V} {e e' r : String × List AxisPoint}
    (h : RelatedEntry (List.Forall₂ PointLe) e e') (hr : addFrozen str frozen e = .ok r) :
    ∃ r', addFrozen str frozen e' = .ok r' ∧ RelatedEntry (List.Forall₂ PointLe) r r' := by
  obtain ⟨hkey, hpoints⟩ := h
  rw [addFrozen, hkey] at hr
  rw [addFrozen]
  by_cases hmem : e'.1 ∈ frozen.parameters.keys
  · rw [if_pos hmem] at hr ⊢
    obtain ⟨p, hp, hr⟩ := except_bind_eq_ok.mp hr
    cases hr
    refine ⟨(e'.1, (joinFrozen e'.2 p).insertionSort AxisPoint.before), by rw [hp]; rfl, rfl, ?_⟩
    apply forall₂_insertionSort _ (joinFrozen_simulates hpoints p)
    intro p q p' q' hpq hpq'
    rw [AxisPoint.before, AxisPoint.before, hpq.1, hpq.2.1, hpq'.1, hpq'.2.1]
  · rw [if_neg hmem] at hr ⊢
    cases hr
    exact ⟨e', rfl, hkey, hpoints⟩

theorem buildAxisPoints_simulates {frozen : EvaluatedNeighbor V} {rows rows' : List (EvaluatedNeighbor V)}
    {byAxis : List (String × List AxisPoint)} (h : List.Forall₂ Improved rows rows')
    (hbuilt : buildAxisPoints str frozen rows = .ok byAxis) :
    ∃ byAxis', buildAxisPoints str frozen rows' = .ok byAxis' ∧
      List.Forall₂ (RelatedEntry (List.Forall₂ PointLe)) byAxis byAxis' := by
  obtain ⟨d, hd, hbuilt⟩ := except_bind_eq_ok.mp hbuilt
  obtain ⟨d', hd', hrelated⟩ := foldlM_simulates (R := Improved) (S := Dict.Related (List.Forall₂ PointLe))
    (g := addNeighbor str frozen.parameters) (fun _ _ _ _ _ hrow hd hc => addNeighbor_simulates hrow hd hc) h
    (show Dict.Related (List.Forall₂ PointLe) {} {} from List.Forall₂.nil) hd
  obtain ⟨byAxis', hbuilt', hentries⟩ := mapM_simulates (R := RelatedEntry (List.Forall₂ PointLe))
    (S := RelatedEntry (List.Forall₂ PointLe)) (g := addFrozen str frozen)
    (fun _ _ _ he hr => addFrozen_simulates he hr) hrelated hbuilt
  exact ⟨byAxis', by rw [buildAxisPoints, hd']; exact hbuilt', hentries⟩

end Simulation

section Axes

variable {V : Type} [BEq V] {str : V → String} {frozen : EvaluatedNeighbor V} {rows : List (EvaluatedNeighbor V)}
variable {axis : String} {points : List AxisPoint}

def varying (str : V → String) (frozenParameters : Dict String V) (axis : String) (rows : List (EvaluatedNeighbor V)) :
    List (EvaluatedNeighbor V) :=
  rows.filter fun row => changedAxes str frozenParameters row.parameters = [axis]

def Charted (str : V → String) (axis : String) (row : EvaluatedNeighbor V) (p : AxisPoint) : Prop :=
  axisPoint str axis row = .ok p

theorem points_of_rows {frozenParameters : Dict String V} {d : Dict String (List AxisPoint)}
    (h : rows.foldlM (addNeighbor str frozenParameters) {} = .ok d) (axis : String) :
    List.Forall₂ (Charted str axis) (varying str frozenParameters axis rows) ((d.get? axis).getD []) := by
  suffices ∀ axis, List.Forall₂ (Charted str axis) (varying str frozenParameters axis ([] ++ rows))
      ((d.get? axis).getD []) from this axis
  apply foldlM_history (fun seen d => ∀ axis,
    List.Forall₂ (Charted str axis) (varying str frozenParameters axis seen) ((d.get? axis).getD [])) _ _ h
  · intro seen row d d' hseen hd' axis
    rw [addNeighbor] at hd'
    rw [varying, List.filter_append, List.filter_singleton]
    match hchanged : changedAxes str frozenParameters row.parameters with
    | [] | _ :: _ :: _ =>
      rw [hchanged] at hd'
      cases hd'
      simpa [varying] using hseen axis
    | [changed] =>
      rw [hchanged] at hd'
      obtain ⟨p, hp, hd'⟩ := except_bind_eq_ok.mp hd'
      cases hd'
      rw [Dict.get?_set]
      by_cases haxis : axis = changed
      · subst haxis
        simp only [decide_true, if_true, Option.getD_some]
        exact List.rel_append (hseen axis) (List.Forall₂.cons hp List.Forall₂.nil)
      · rw [if_neg haxis]
        simpa [varying, Ne.symm haxis] using hseen axis
  · intro axis
    exact List.Forall₂.nil

omit [BEq V] in
theorem Charted.childId {row : EvaluatedNeighbor V} {p : AxisPoint} (h : Charted str axis row p) :
    p.childId = row.childId := by
  obtain ⟨value, _, rfl⟩ := except_map_eq_ok.mp h
  rfl

omit [BEq V] in
theorem Charted.stable {row : EvaluatedNeighbor V} {p : AxisPoint} (h : Charted str axis row p) :
    p.stable = row.stable := by
  obtain ⟨value, _, rfl⟩ := except_map_eq_ok.mp h
  rfl

omit [BEq V] in
theorem Charted.value {row : EvaluatedNeighbor V} {p : AxisPoint} (h : Charted str axis row p) :
    axisValue str axis row = .ok p.value := by
  obtain ⟨value, hvalue, rfl⟩ := except_map_eq_ok.mp h
  exact hvalue

def InValueOrder (str : V → String) (axis : String) (line : List (EvaluatedNeighbor V)) : Prop :=
  line.Pairwise fun row row' => ∃ x y, axisValue str axis row = .ok x ∧ axisValue str axis row' = .ok y ∧ x ≤ y

def StretchOn (str : V → String) (frozen : EvaluatedNeighbor V) (rows : List (EvaluatedNeighbor V)) (axis : String)
    (size : ℕ) : Prop :=
  axis ∈ frozen.parameters.keys ∧ ∃ before run after,
    (before ++ run ++ after).Perm (frozen :: varying str frozen.parameters axis rows) ∧
    InValueOrder str axis (before ++ run ++ after) ∧ frozen ∈ run ∧
    (∀ row ∈ run, row.status = "complete" ∧ row.stable = true) ∧ run.length = size

omit [BEq V] in
theorem childId_ne (hids : ∀ row ∈ rows, row.childId ≠ frozen.childId) (h : List.Forall₂ (Charted str axis) rows points)
    {p : AxisPoint} (hp : p ∈ points) : p.childId ≠ frozen.childId := by
  obtain ⟨row, hrow, hcharted⟩ := exists_related h.flip hp
  rw [Charted.childId hcharted]
  exact hids row hrow

omit [BEq V] in
theorem exists_line (h : List.Forall₂ (Charted str axis) rows points) :
    ∃ line, line.Perm rows ∧ List.Forall₂ (Charted str axis) line (points.insertionSort AxisPoint.before) ∧
      InValueOrder str axis line := by
  have htotal : Std.Total AxisPoint.before := ⟨by
    intro p q
    obtain hlt | heq | hgt := lt_trichotomy p.value q.value
    · exact .inl (.inl hlt)
    · cases le_total p.childId q.childId with
      | inl hle => exact .inl (.inr ⟨heq, hle⟩)
      | inr hle => exact .inr (.inr ⟨heq.symm, hle⟩)
    · exact .inr (.inl hgt)⟩
  have htrans : IsTrans AxisPoint AxisPoint.before := ⟨by
    intro p q r hpq hqr
    obtain hpq | ⟨hpq, hle⟩ := hpq
    · obtain hqr | ⟨hqr, _⟩ := hqr
      · exact .inl (hpq.trans hqr)
      · exact .inl (hqr ▸ hpq)
    · obtain hqr | ⟨hqr, hle'⟩ := hqr
      · exact .inl (hpq ▸ hqr)
      · exact .inr ⟨hpq.trans hqr, hle.trans hle'⟩⟩
  obtain ⟨line, hline, hperm⟩ := List.perm_comp_forall₂ (List.perm_insertionSort AxisPoint.before points) h.flip
  refine ⟨line, hperm, hline.flip, ?_⟩
  have hsorted := List.pairwise_insertionSort AxisPoint.before points
  rw [InValueOrder, List.pairwise_iff_get]
  rw [List.pairwise_iff_get] at hsorted
  intro i j hij
  obtain ⟨hlength, hpoints⟩ := List.forall₂_iff_get.mp hline.flip
  refine ⟨_, _, Charted.value (hpoints i i.2 (hlength ▸ i.2)), Charted.value (hpoints j j.2 (hlength ▸ j.2)), ?_⟩
  cases hsorted ⟨i, hlength ▸ i.2⟩ ⟨j, hlength ▸ j.2⟩ hij with
  | inl hlt => exact hlt.le
  | inr heq => exact heq.1.le

omit [BEq V] in
theorem contiguous_of_line {line : List (EvaluatedNeighbor V)} (h : List.Forall₂ (Charted str axis) line points)
    (frozenChildId : String) : contiguousStableThroughFrozen points frozenChildId =
      runThrough (fun row => row.childId = frozenChildId) (fun row => row.stable) line := by
  apply le_antisymm
  · apply runThrough_le h.flip
    · intro p row hp
      rw [Charted.childId hp]
    · intro p row hp hstable
      rwa [← Charted.stable hp]
  · apply runThrough_le h
    · intro row p hp
      rw [hp.childId]
    · intro row p hp hstable
      rwa [hp.stable]

theorem stretch_of_entry {byAxis : List (String × List AxisPoint)} (hids : ∀ row ∈ rows, row.childId ≠ frozen.childId)
    (hcomplete : ∀ row ∈ frozen :: rows, row.stable = true → row.status = "complete")
    (hbuilt : buildAxisPoints str frozen rows = .ok byAxis) (hentry : (axis, points) ∈ byAxis)
    (hpos : 0 < contiguousStableThroughFrozen points frozen.childId) :
    StretchOn str frozen rows axis (contiguousStableThroughFrozen points frozen.childId) := by
  obtain ⟨d, hd, hbuilt⟩ := except_bind_eq_ok.mp hbuilt
  obtain ⟨⟨key, added⟩, hadded, hfrozen⟩ := mapM_ok_mem hbuilt hentry
  have hrows := points_of_rows hd key
  rw [Dict.get?_eq_some_iff.mpr hadded, Option.getD_some] at hrows
  have hidsVarying : ∀ row ∈ varying str frozen.parameters key rows, row.childId ≠ frozen.childId :=
    fun row hrow => hids row (List.mem_of_mem_filter hrow)
  have hnone : ∀ p ∈ added, p.childId ≠ frozen.childId := fun p hp => childId_ne hidsVarying hrows hp
  rw [addFrozen] at hfrozen
  by_cases hmem : key ∈ frozen.parameters.keys
  · rw [if_pos hmem] at hfrozen
    obtain ⟨p, hp, hfrozen⟩ := except_bind_eq_ok.mp hfrozen
    cases hfrozen
    have hpoint : Charted str key frozen p := hp
    have hjoined : joinFrozen added p = added ++ [p] := by
      rw [joinFrozen, if_neg]
      rw [hpoint.childId]
      simpa using hnone
    rw [hjoined] at hpos ⊢
    obtain ⟨line, hperm, hline, horder⟩ := exists_line
      (List.rel_append hrows (List.Forall₂.cons hpoint List.Forall₂.nil))
    rw [contiguous_of_line hline] at hpos ⊢
    obtain ⟨before, run, after, rfl, ⟨c, hc, hcenter⟩, hgood, hlength⟩ := runThrough_spec hpos
    have hall := hperm.trans (List.perm_append_singleton frozen _)
    have hinside : ∀ row ∈ run, row ∈ frozen :: varying str frozen.parameters key rows :=
      fun row hrow => hall.mem_iff.mp (by simp [hrow])
    refine ⟨hmem, before, run, after, hall, horder, ?_, ?_, hlength⟩
    · -- The only row with the id of the frozen point is the frozen point.
      cases List.mem_cons.mp (hinside c hc) with
      | inl heq => exact heq ▸ hc
      | inr hvarying => exact absurd (of_decide_eq_true hcenter) (hidsVarying c hvarying)
    · intro row hrow
      refine ⟨hcomplete row ?_ (hgood row hrow), hgood row hrow⟩
      cases List.mem_cons.mp (hinside row hrow) with
      | inl heq => exact heq ▸ List.mem_cons_self
      | inr hvarying => exact List.mem_cons_of_mem _ (List.mem_of_mem_filter hvarying)
  · rw [if_neg hmem] at hfrozen
    cases hfrozen
    obtain ⟨_, run, _, rfl, ⟨c, hc, hcenter⟩, _⟩ := runThrough_spec hpos
    exact absurd (of_decide_eq_true hcenter) (hnone c (by simp [hc]))

end Axes

section Runs

variable {V : Type} [BEq V] (str : V → String)

theorem evaluateUnder_eq_ok {policy : ParameterAreaPolicy} {inputs : AreaInputs V} {result : ParameterAreaResult V} :
    evaluateUnder str policy inputs = .ok result ↔ ∃ frozen frozenEval neighbors byAxis,
      frozenObservation str inputs = .ok frozen ∧
      evaluateNeighbor policy inputs.requireGateForStable frozen = .ok frozenEval ∧
      (inputs.observations.filter (·.childId ≠ "frozen")).mapM
        (evaluateNeighbor policy inputs.requireGateForStable) = .ok neighbors ∧
      buildAxisPoints str { frozenEval with parameters := inputs.frozenParameters } neighbors = .ok byAxis ∧
      areaResult policy { frozenEval with parameters := inputs.frozenParameters } neighbors byAxis = result := by
  simp only [evaluateUnder, except_bind_eq_ok]
  constructor
  · rintro ⟨frozen, hfrozen, frozenEval, heval, neighbors, hneighbors, byAxis, hbuilt, hresult⟩
    cases hresult
    exact ⟨frozen, frozenEval, neighbors, byAxis, hfrozen, heval, hneighbors, hbuilt, rfl⟩
  · rintro ⟨frozen, frozenEval, neighbors, byAxis, hfrozen, heval, hneighbors, hbuilt, rfl⟩
    exact ⟨frozen, hfrozen, frozenEval, heval, neighbors, hneighbors, byAxis, hbuilt, rfl⟩

variable {policy : ParameterAreaPolicy} {inputs : AreaInputs V} {before after : List (NeighborObservation V)}
variable {obs obs' : NeighborObservation V} {requireGate : Bool}

omit [BEq V] in
theorem Raised.childId (h : Raised policy requireGate obs obs') : obs'.childId = obs.childId := by rw [h.same]

theorem frozenObservation_raised (h : Raised policy requireGate obs obs') :
    frozenObservation str (inputs.observed (before ++ obs' :: after)) =
      frozenObservation str (inputs.observed (before ++ obs :: after)) := by
  have hsame : (before ++ obs' :: after).filter (fun o => o.childId = "frozen") =
      (before ++ obs :: after).filter (fun o => o.childId = "frozen") := by
    simp [h.childId, h.neighbor]
  simp only [frozenObservation, AreaInputs.observed, hsame]
  rfl

omit [BEq V] in
theorem neighbors_raised (h : Raised policy requireGate obs obs') {rows : List (EvaluatedNeighbor V)}
    (hrows : ((before ++ obs :: after).filter (·.childId ≠ "frozen")).mapM (evaluateNeighbor policy requireGate) =
      .ok rows) :
    ∃ rows', ((before ++ obs' :: after).filter (·.childId ≠ "frozen")).mapM (evaluateNeighbor policy requireGate) =
      .ok rows' ∧ List.Forall₂ Improved rows rows' := by
  apply mapM_simulates (R := fun o o' => o' = o ∨ Raised policy requireGate o o') _ _ hrows
  · intro o o' row ho hrow
    cases ho with
    | inl heq => exact ⟨row, by rw [heq, hrow], Improved.refl row⟩
    | inr hraised => exact evaluate_raised hraised hrow
  · apply forall₂_filter
    · have hsame : ∀ l : List (NeighborObservation V),
          List.Forall₂ (fun o o' => o' = o ∨ Raised policy requireGate o o') l l :=
        fun l => List.forall₂_same.mpr fun o _ => .inl rfl
      exact List.rel_append (hsame before) (List.Forall₂.cons (.inr h) (hsame after))
    · intro o o' ho
      cases ho with
      | inl heq => rw [heq]
      | inr hraised => rw [hraised.childId]

theorem evaluateUnder_mono {result : ParameterAreaResult V} (h : Raised policy inputs.requireGateForStable obs obs')
    (hresult : evaluateUnder str policy (inputs.observed (before ++ obs :: after)) = .ok result) :
    ∃ result', evaluateUnder str policy (inputs.observed (before ++ obs' :: after)) = .ok result' ∧
      result.classification.rank ≤ result'.classification.rank := by
  obtain ⟨frozen, frozenEval, rows, byAxis, hfrozen, heval, hrows, hbuilt, rfl⟩ := (evaluateUnder_eq_ok str).mp hresult
  obtain ⟨rows', hrows', himproved⟩ := neighbors_raised h hrows
  obtain ⟨byAxis', hbuilt', hpoints⟩ := buildAxisPoints_simulates himproved hbuilt
  refine ⟨_, (evaluateUnder_eq_ok str).mpr ⟨frozen, frozenEval, rows', byAxis', ?_, heval, hrows', hbuilt', rfl⟩, ?_⟩
  · rw [frozenObservation_raised str h, hfrozen]
  · exact classify_mono policy (evidence_atLeast _ himproved hpoints)

end Runs

section Soundness

variable {V : Type} {policy : ParameterAreaPolicy} {requireGate : Bool} {byAxis : List (String × List AxisPoint)}

theorem complete_of_stable {obs : NeighborObservation V} {row : EvaluatedNeighbor V}
    (hrow : evaluateNeighbor policy requireGate obs = .ok row) (hstable : row.stable = true) :
    row.status = "complete" := by
  obtain ⟨net, _, hrow⟩ := except_bind_eq_ok.mp hrow
  obtain ⟨costs, _, hrow⟩ := except_bind_eq_ok.mp hrow
  cases hrow
  by_contra hstatus
  simp only [isNeighborStable, if_pos hstatus] at hstable
  cases hstable

theorem childId_of_evaluated {obs : NeighborObservation V} {row : EvaluatedNeighbor V}
    (hrow : evaluateNeighbor policy requireGate obs = .ok row) : row.childId = obs.childId := by
  obtain ⟨net, _, hrow⟩ := except_bind_eq_ok.mp hrow
  obtain ⟨costs, _, hrow⟩ := except_bind_eq_ok.mp hrow
  cases hrow
  rfl

theorem plateau_cases {frozenStable : Bool} (hpos : 0 < (plateauRegion frozenStable byAxis).plateauSize) :
    (∃ axis points, (axis, points) ∈ byAxis ∧
      contiguousStableThroughFrozen points "frozen" = (plateauRegion frozenStable byAxis).plateauSize) ∨
    (byAxis = [] ∧ frozenStable = true ∧ (plateauRegion frozenStable byAxis).plateauSize = 1) := by
  rw [plateauRegion] at hpos ⊢
  by_cases hempty : (measureContiguousRegions byAxis "frozen").plateauSize = 0 ∧ frozenStable = true ∧ byAxis = []
  · rw [if_pos hempty]
    exact .inr ⟨hempty.2.2, hempty.2.1, rfl⟩
  · rw [if_neg hempty] at hpos ⊢
    obtain ⟨run, hrun, hsize⟩ := List.mem_map.mp (max?_getD_mem hpos)
    obtain ⟨⟨axis, points⟩, hentry, rfl⟩ := List.mem_map.mp hrun
    exact .inl ⟨axis, points, List.mem_insertionSort _ |>.mp hentry, hsize⟩

variable [BEq V] {str : V → String} {frozen : EvaluatedNeighbor V} {rows : List (EvaluatedNeighbor V)}

theorem varying_eq_nil (hbuilt : buildAxisPoints str frozen rows = .ok []) (axis : String) :
    varying str frozen.parameters axis rows = [] := by
  obtain ⟨d, hd, hbuilt⟩ := except_bind_eq_ok.mp hbuilt
  have hentries : d.entries = [] := by
    have hlength := (mapM_eq_ok_iff.mp hbuilt).length_eq
    simpa using hlength
  have hrows := points_of_rows hd axis
  rw [Dict.get?, hentries] at hrows
  exact List.forall₂_nil_right_iff.mp hrows

theorem stretch_of_plateau (hid : frozen.childId = "frozen") (hids : ∀ row ∈ rows, row.childId ≠ frozen.childId)
    (hcomplete : ∀ row ∈ frozen :: rows, row.stable = true → row.status = "complete")
    (hparameters : frozen.parameters.keys ≠ []) (hbuilt : buildAxisPoints str frozen rows = .ok byAxis)
    (hpos : 0 < (plateauRegion frozen.stable byAxis).plateauSize) :
    ∃ axis, StretchOn str frozen rows axis (plateauRegion frozen.stable byAxis).plateauSize := by
  cases plateau_cases hpos with
  | inl hmeasured =>
    obtain ⟨axis, points, hentry, hsize⟩ := hmeasured
    rw [← hsize, ← hid] at hpos
    have hstretch := stretch_of_entry hids hcomplete hbuilt hentry hpos
    rw [hid, hsize] at hstretch
    exact ⟨axis, hstretch⟩
  | inr halone =>
    -- The frozen point is alone on each of its axes.
    obtain ⟨rfl, hstable, hsize⟩ := halone
    obtain ⟨axis, haxis⟩ := List.exists_mem_of_ne_nil _ hparameters
    rw [hsize]
    refine ⟨axis, haxis, [], [frozen], [], ?_, List.pairwise_singleton _ _, List.mem_singleton_self _, ?_, rfl⟩
    · rw [varying_eq_nil hbuilt axis]
      rfl
    · intro row hrow
      rw [List.mem_singleton.mp hrow]
      exact ⟨hcomplete frozen List.mem_cons_self hstable, hstable⟩

theorem frozenObservation_eq_ok {inputs : AreaInputs V} {obs : NeighborObservation V}
    (h : frozenObservation str inputs = .ok obs) : inputs.frozenParameters.keys ≠ [] ∧ obs.childId = "frozen" := by
  rw [frozenObservation] at h
  split_ifs at h with _ hparameters _
  refine ⟨hparameters, ?_⟩
  match hfrozen : inputs.observations.filter (·.childId = "frozen") with
  | [] | _ :: _ :: _ =>
    rw [hfrozen] at h
    cases h
  | [only] =>
    have hmem : only ∈ inputs.observations.filter (·.childId = "frozen") := hfrozen ▸ List.mem_singleton_self only
    rw [hfrozen] at h
    dsimp only at h
    split_ifs at h
    cases h
    exact of_decide_eq_true (List.mem_filter.mp hmem).2

theorem result_facts {inputs : AreaInputs V} {result : ParameterAreaResult V}
    (hresult : evaluateUnder str policy inputs = .ok result) :
    ∃ e, result.classification = (classifyParameterArea policy e).1 ∧
      e.stableShare = completeShare (·.stable) result.neighbors ∧ e.gatePassShare = gatePassShare result.neighbors ∧
      (e.plateauIncludesFrozen = true →
        ∃ axis, StretchOn str result.frozenPoint result.neighbors axis e.plateauSize) := by
  obtain ⟨obs, frozen, rows, byAxis, hobs, hfrozen, hrows, hbuilt, rfl⟩ := (evaluateUnder_eq_ok str).mp hresult
  obtain ⟨hparameters, hid⟩ := frozenObservation_eq_ok hobs
  have hfrozenId : frozen.childId = "frozen" := (childId_of_evaluated hfrozen).trans hid
  refine ⟨areaEvidence { frozen with parameters := inputs.frozenParameters } rows byAxis, rfl, rfl, rfl, ?_⟩
  intro hincludes
  have hpos : 0 < (plateauRegion frozen.stable byAxis).plateauSize := by
    simp only [areaEvidence, Bool.or_eq_true, Bool.and_eq_true, decide_eq_true_iff, includes_iff] at hincludes
    tauto
  refine stretch_of_plateau ?_ ?_ ?_ ?_ hbuilt hpos
  · exact hfrozenId
  · intro row hrow
    obtain ⟨o, ho, heval⟩ := mapM_ok_mem hrows hrow
    rw [childId_of_evaluated heval]
    exact fun heq => of_decide_eq_true (List.mem_filter.mp ho).2 (heq.trans hfrozenId)
  · have hcomplete := complete_of_stable hfrozen
    rw [List.forall_mem_cons]
    refine ⟨hcomplete, ?_⟩
    intro row hrow
    obtain ⟨o, _, heval⟩ := mapM_ok_mem hrows hrow
    exact complete_of_stable heval
  · exact hparameters

/-- The frozen point lies in a run of some length on one of its axes. -/
def Supported (str : V → String) (result : ParameterAreaResult V) (minimum : ℤ) : Prop :=
  ∃ axis size, StretchOn str result.frozenPoint result.neighbors axis size ∧ minimum ≤ size

theorem evaluateUnder_sound {inputs : AreaInputs V} {result : ParameterAreaResult V}
    (hresult : evaluateUnder str policy inputs = .ok result) :
    (result.classification = .narrowStableArea →
      Supported str result policy.narrowMinContiguous ∧
        policy.narrowMinStableShare ≤ completeShare (·.stable) result.neighbors) ∧
    (result.classification = .broadStablePlateau →
      Supported str result (max policy.narrowMinContiguous policy.broadMinContiguous) ∧
        policy.broadMinStableShare ≤ completeShare (·.stable) result.neighbors ∧
        ∃ share, gatePassShare result.neighbors = some share ∧ policy.broadMinGatePassShare ≤ share) := by
  obtain ⟨e, hlabel, hshare, hgate, hstretch⟩ := result_facts hresult
  rw [hlabel, ← hshare, ← hgate]
  constructor
  · intro hnarrow
    obtain ⟨_, _, _, _, hincludes, hsize⟩ := plateau_of_label (.inl hnarrow)
    obtain ⟨axis, hrun⟩ := hstretch hincludes
    exact ⟨⟨axis, e.plateauSize, hrun, hsize⟩, share_of_narrow hnarrow⟩
  · intro hbroad
    obtain ⟨_, _, _, _, hincludes, hsize⟩ := plateau_of_label (.inr hbroad)
    obtain ⟨hsize', hshare', _, hgates⟩ := support_of_broad hbroad
    obtain ⟨axis, hrun⟩ := hstretch hincludes
    obtain ⟨share, hsome, hle⟩ := (Option.any_eq_true _ _).mp hgates
    exact ⟨⟨axis, e.plateauSize, hrun, max_le hsize hsize'⟩, hshare', share, hsome, of_decide_eq_true hle⟩

/-- A stable label has its run and its shares, and a neighbor that does better never lowers a label. -/
theorem area_sound_and_monotone (str : V → String) (policy : ParameterAreaPolicy) (inputs : AreaInputs V) :
    (∀ result, evaluateUnder str policy inputs = .ok result →
      (result.classification = .narrowStableArea →
        Supported str result policy.narrowMinContiguous ∧
          policy.narrowMinStableShare ≤ completeShare (·.stable) result.neighbors) ∧
      (result.classification = .broadStablePlateau →
        Supported str result (max policy.narrowMinContiguous policy.broadMinContiguous) ∧
          policy.broadMinStableShare ≤ completeShare (·.stable) result.neighbors ∧
          ∃ share, gatePassShare result.neighbors = some share ∧ policy.broadMinGatePassShare ≤ share)) ∧
    ∀ before obs after obs' result, Raised policy inputs.requireGateForStable obs obs' →
      evaluateUnder str policy (inputs.observed (before ++ obs :: after)) = .ok result →
        ∃ result', evaluateUnder str policy (inputs.observed (before ++ obs' :: after)) = .ok result' ∧
          result.classification.rank ≤ result'.classification.rank :=
  ⟨fun _ hresult => evaluateUnder_sound hresult, fun _ _ _ _ _ hraised hresult => evaluateUnder_mono str hraised hresult⟩

def sampleChild (childId value net : String) : NeighborObservation String where
  childId := childId
  label := "ema=" ++ value
  parameters := { entries := [("ema", value)] }
  status := "complete"
  netPnl := some net
  totalCosts := some "1"
  gatePass := some true

def sampleInputs : AreaInputs String where
  robustnessId := "rb_1"
  frozenParameters := { entries := [("ema", "10")] }
  observations := []

theorem sampleRaised :
    Raised policy10 false (sampleChild "neighbor_02" "11" "-5") (sampleChild "neighbor_02" "11" "95") where
  neighbor := by decide
  same := rfl
  net := ⟨-5, 95, by decide +kernel, by decide +kernel, by norm_num⟩
  gatePass := .inl rfl
  stable := by
    have hstable : (evaluateNeighbor policy10 false (sampleChild "neighbor_02" "11" "95")).map
        (fun row => row.stable) = .ok true := by decide +kernel
    exact except_map_eq_ok.mp hstable

theorem area_sound_and_monotone_sample :
    ∃ result, evaluateUnder id policy10 (sampleInputs.observed
      [sampleChild "frozen" "10" "100", sampleChild "neighbor_01" "9" "90", sampleChild "neighbor_02" "11" "-5"]) =
        .ok result ∧ result.classification = .narrowStableArea ∧ Supported id result 2 ∧
      ∃ result', evaluateUnder id policy10 (sampleInputs.observed
        [sampleChild "frozen" "10" "100", sampleChild "neighbor_01" "9" "90", sampleChild "neighbor_02" "11" "95"]) =
          .ok result' ∧ 2 ≤ result'.classification.rank := by
  have hnarrow : (evaluateUnder id policy10 (sampleInputs.observed
      [sampleChild "frozen" "10" "100", sampleChild "neighbor_01" "9" "90", sampleChild "neighbor_02" "11" "-5"])).map
        (fun result => result.classification) = .ok .narrowStableArea := by decide +kernel
  obtain ⟨result, hresult, hlabel⟩ := except_map_eq_ok.mp hnarrow
  obtain ⟨hsound, hmono⟩ := area_sound_and_monotone id policy10 (sampleInputs.observed
    [sampleChild "frozen" "10" "100", sampleChild "neighbor_01" "9" "90", sampleChild "neighbor_02" "11" "-5"])
  obtain ⟨result', hresult', hrank⟩ := hmono
    [sampleChild "frozen" "10" "100", sampleChild "neighbor_01" "9" "90"] _ [] _ result sampleRaised hresult
  rw [hlabel] at hrank
  exact ⟨result, hresult, hlabel, ((hsound result hresult).1 hlabel).1, result', hresult', hrank⟩

end Soundness

end TradingBot.Research.PlateauSoundness
