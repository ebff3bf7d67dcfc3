import TradingBot.Library.Trace
import TradingBot.Research.ArtifactWriter

namespace TradingBot.Research.AtomicFinalise

open Library.Dictionary Library.Trace Research.Artifacts Research.ArtifactWriter
open Library.Outcome (except_bind_eq_ok)

variable {ι : Type} [DecidableEq ι] {sha256 : Content → String}

def SameFiles (tree tree' : Tree) : Prop := ∀ rel, tree.get? rel = tree'.get? rel

def HoldsOneFileSet (sha256 : Content → String) (s : State ι) : Prop :=
  s.final = none ∨ ∃ i tree fileSet, s.final = some tree ∧ (s.writers i).sealed = some fileSet ∧
    SameFiles tree fileSet ∧ verifyChecksums sha256 tree = .ok ()

/-- No file below a subdirectory is called like the seal. -/
def NoNestedSeal (tree : Tree) : Prop :=
  ∀ rel ∈ tree.keys, rel ≠ checksumsJson → pathName rel ≠ "checksums.json"

/-- A step that does not reach one of the ways in which the move is not atomic: no directory is moved, and no
file copied, into a final directory that is already there; nothing is copied to a place where there is none;
and what is renamed into place has no second seal. -/
def CleanAct (final : Option Tree) (w : Writer) (a : Action) : Prop :=
  match a, w.phase with
  | .move, .resolved .final => final.isSome ∨ w.crossDevice = false ∧ NoNestedSeal w.work
  | .move, .resolved .inside => w.crossDevice = true
  | .copyPartly _ _, _ => False
  | .copy _, _ => False
  | _, _ => True

def Clean (s : State ι) (e : ι × Action) : Prop := CleanAct s.final (s.writers e.1) e.2

def Placed (w : Writer) : Prop := w.phase = .moved ∨ w.phase = .returned

/-- What is known of a writer in a run of clean steps. -/
structure WriterInv (sha256 : Content → String) (final : Option Tree) (w : Writer) : Prop where
  unsealed : w.phase = .fresh ∨ w.phase = .writing → w.sealed = none
  sealedWork : w.phase ≠ .fresh → w.phase ≠ .writing → w.phase ≠ .crashed → w.phase ≠ .raised →
    w.sealed = some w.work
  sealedSeal : ∀ tree, w.sealed = some tree →
    tree.get? checksumsJson = some (.checksums (checksumsForDir sha256 tree))
  paths : ∀ rel ∈ w.work.keys, rel ≠ []
  inside : w.phase = .resolved .inside ∨ (∃ remaining, w.phase = .copying .inside remaining) →
    ∃ tree, final = some tree ∧ ∀ rel ∈ tree.keys, rel.head? ≠ some w.workName
  copying : ∀ target remaining, w.phase = .copying target remaining → target = .inside ∧ remaining ≠ []

/-- Either nothing is in place, or the final directory is the one of a single writer. -/
def Owned (s : State ι) : Prop :=
  (s.final = none ∧ ∀ j, ¬Placed (s.writers j)) ∨
    ∃ i tree, s.final = some tree ∧ (s.writers i).sealed = some tree ∧ NoNestedSeal tree ∧
      ∀ j, Placed (s.writers j) → j = i

structure Inv (sha256 : Content → String) (s : State ι) : Prop where
  writers : ∀ i, WriterInv sha256 s.final (s.writers i)
  owned : Owned s

/-- What a clean step of a writer does: it leaves the final directory alone, or puts its work there as the first. -/
def CleanEffect (sha256 : Content → String) (final : Option Tree) (w : Writer) (final' : Option Tree)
    (w' : Writer) : Prop :=
  WriterInv sha256 final' w' ∧
    ((final' = final ∧ (Placed w' → Placed w) ∧ (w.sealed = none ∨ w'.sealed = w.sealed)) ∨
      (final = none ∧ ∃ tree, final' = some tree ∧ w'.sealed = some tree ∧ NoNestedSeal tree))

section Act

variable {final final' : Option Tree} {w w' : Writer}

theorem WriterInv.setPhase (h : WriterInv sha256 final w) {phase : Phase}
    (hunsealed : phase = .fresh ∨ phase = .writing → w.sealed = none)
    (hsealed : phase ≠ .fresh → phase ≠ .writing → phase ≠ .crashed → phase ≠ .raised →
      w.sealed = some w.work)
    (hinside : phase = .resolved .inside ∨ (∃ remaining, phase = .copying .inside remaining) →
      ∃ tree, final = some tree ∧ ∀ rel ∈ tree.keys, rel.head? ≠ some w.workName)
    (hcopying : ∀ target remaining, phase = .copying target remaining → target = .inside ∧ remaining ≠ []) :
    WriterInv sha256 final { w with phase := phase } :=
  ⟨hunsealed, hsealed, h.sealedSeal, h.paths, hinside, hcopying⟩

theorem WriterInv.setPlainPhase (h : WriterInv sha256 final w) {phase : Phase}
    (hsealed : phase = .crashed ∨ phase = .raised ∨
      w.sealed = some w.work ∧ (phase = .checked ∨ phase = .resolved .final ∨ phase = .moved ∨ phase = .returned)) :
    WriterInv sha256 final { w with phase := phase } := by
  refine h.setPhase ?_ ?_ ?_ ?_
  · rintro (rfl | rfl) <;> simp at hsealed
  · intro _ _ hcrashed hraised
    rcases hsealed with hphase | hphase | hsealed
    · exact absurd hphase hcrashed
    · exact absurd hphase hraised
    · exact hsealed.1
  · rintro (rfl | ⟨remaining, rfl⟩) <;> simp at hsealed
  · rintro target remaining rfl
    simp at hsealed

theorem resolveTarget_inv (h : WriterInv sha256 final w) (hsealed : w.sealed = some w.work) :
    WriterInv sha256 final { w with phase := resolveTarget final w } := by
  unfold resolveTarget
  cases final with
  | none => exact h.setPlainPhase (.inr (.inr ⟨hsealed, .inr (.inl rfl)⟩))
  | some tree =>
    by_cases htaken : tree.keys.any (·.head? = some w.workName) = true
    · simp only [htaken, if_true]
      exact h.setPlainPhase (.inr (.inl rfl))
    · simp only [htaken]
      refine h.setPhase (by simp) (fun _ _ _ _ => hsealed) (fun _ => ⟨tree, rfl, ?_⟩) (by simp)
      intro rel hrel hhead
      exact htaken (List.any_eq_true.mpr ⟨rel, hrel, decide_eq_true hhead⟩)

theorem moveTo_clean (h : WriterInv sha256 final w) (hfull : ∀ tree, final = some tree → tree.entries ≠ [])
    {target : Target} (hphase : w.phase = .resolved target) (hclean : CleanAct final w .move) :
    CleanEffect sha256 final w (moveTo final w target).1 (moveTo final w target).2 := by
  have hsealed := h.sealedWork (by simp [hphase]) (by simp [hphase]) (by simp [hphase]) (by simp [hphase])
  have hnotPlaced : ¬Placed w := by simp [Placed, hphase]
  unfold CleanAct at hclean
  cases target with
  | final =>
    simp only [hphase] at hclean
    cases hfinal : final with
    | none =>
      rw [hfinal] at hclean h
      simp only [Option.isSome_none, Bool.false_eq_true, false_or] at hclean
      simp only [moveTo, hclean.1, Bool.false_eq_true, if_false]
      refine ⟨⟨by simp, fun _ _ _ _ => hsealed, h.sealedSeal, h.paths, by simp, by simp⟩, .inr ⟨rfl, ?_⟩⟩
      exact ⟨w.work, rfl, hsealed, hclean.2⟩
    | some tree =>
      have hmove : moveTo (some tree) w .final = (some tree, { w with phase := .raised }) :=
        if_pos (.inr (hfull tree hfinal))
      rw [hmove, ← hfinal]
      exact ⟨h.setPlainPhase (.inr (.inl rfl)), .inl ⟨rfl, by simp [Placed], .inr rfl⟩⟩
  | inside =>
    simp only [hphase] at hclean
    obtain ⟨tree, hfinal, hfree⟩ := h.inside (.inl hphase)
    have hmove : moveTo final w .inside = (final, { w with phase := .copying .inside w.work.keys }) := if_pos hclean
    rw [hmove]
    have hseal := h.sealedSeal w.work hsealed
    have hnonempty : w.work.keys ≠ [] := List.ne_nil_of_mem (Dict.mem_keys_of_get? hseal)
    refine ⟨h.setPhase (by simp) (fun _ _ _ _ => hsealed) (fun _ => ⟨tree, hfinal, hfree⟩) ?_,
      .inl ⟨rfl, by simp [Placed], .inr rfl⟩⟩
    intro target remaining hcopying
    cases hcopying
    exact ⟨rfl, hnonempty⟩

theorem act_clean (h : WriterInv sha256 final w) (hfull : ∀ tree, final = some tree → tree.entries ≠ [])
    {a : Action} (hclean : CleanAct final w a) (hact : act sha256 final w a = some (final', w')) :
    CleanEffect sha256 final w final' w' := by
  cases a with
  | enter =>
    obtain ⟨hphase, heq⟩ := Option.ite_none_right_eq_some.mp hact
    cases heq
    have hunsealed := h.unsealed (.inl hphase)
    refine ⟨h.setPhase (fun _ => hunsealed) ?_ ?_ ?_, .inl ⟨rfl, ?_, .inl hunsealed⟩⟩
    · split_ifs <;> simp
    · split_ifs <;> simp
    · split_ifs <;> simp
    · unfold Placed
      split_ifs <;> simp
  | write rel content =>
    obtain ⟨⟨hphase, hrel⟩, heq⟩ := Option.ite_none_right_eq_some.mp hact
    cases heq
    have hunsealed := h.unsealed (.inr hphase)
    refine ⟨⟨h.unsealed, ?_, h.sealedSeal, ?_, h.inside, h.copying⟩, .inl ⟨rfl, id, .inr rfl⟩⟩
    · exact fun _ hwriting => absurd hphase hwriting
    · intro rel' hrel'
      rcases mem_keys_set.mp hrel' with rfl | hrel'
      · exact hrel
      · exact h.paths rel' hrel'
  | writeSeal =>
    obtain ⟨hphase, heq⟩ := Option.ite_none_right_eq_some.mp hact
    cases heq
    have hunsealed := h.unsealed (.inr hphase)
    refine ⟨⟨by simp, fun _ _ _ _ => rfl, ?_, ?_, by simp, by simp⟩, .inl ⟨rfl, by simp [Placed], .inl hunsealed⟩⟩
    · rintro tree ⟨⟩
      exact sealedTree_seal
    · intro rel hrel
      rcases mem_keys_set.mp hrel with rfl | hrel
      · simp [checksumsJson]
      · exact h.paths rel hrel
  | check =>
    obtain ⟨hphase, heq⟩ := Option.ite_none_right_eq_some.mp hact
    cases heq
    have hsealed := h.sealedWork (by simp [hphase]) (by simp [hphase]) (by simp [hphase]) (by simp [hphase])
    refine ⟨h.setPlainPhase ?_, .inl ⟨rfl, ?_, .inr rfl⟩⟩
    · split_ifs <;> simp [hsealed]
    · unfold Placed
      split_ifs <;> simp
  | resolve =>
    obtain ⟨hphase, heq⟩ := Option.ite_none_right_eq_some.mp hact
    cases heq
    have hsealed := h.sealedWork (by simp [hphase]) (by simp [hphase]) (by simp [hphase]) (by simp [hphase])
    refine ⟨resolveTarget_inv h hsealed, .inl ⟨rfl, ?_, .inr rfl⟩⟩
    unfold Placed resolveTarget
    cases final with
    | none => simp
    | some tree =>
      dsimp only
      split_ifs <;> simp
  | move =>
    unfold act at hact
    cases hphase : w.phase with
    | resolved target =>
      rw [hphase] at hact
      have heffect := moveTo_clean h hfull hphase hclean
      rwa [Option.some.inj hact] at heffect
    | _ => simp [hphase] at hact
  | copyPartly rel content => exact hclean.elim
  | copy rel => exact hclean.elim
  | copied =>
    unfold act at hact
    cases hphase : w.phase with
    | copying target remaining =>
      cases remaining with
      | nil => exact absurd rfl (h.copying target [] hphase).2
      | cons rel remaining => simp [hphase] at hact
    | _ => simp [hphase] at hact
  | finish =>
    obtain ⟨hphase, heq⟩ := Option.ite_none_right_eq_some.mp hact
    cases heq
    have hsealed := h.sealedWork (by simp [hphase]) (by simp [hphase]) (by simp [hphase]) (by simp [hphase])
    refine ⟨h.setPlainPhase (.inr (.inr ⟨hsealed, by simp⟩)), .inl ⟨rfl, fun _ => .inl hphase, .inr rfl⟩⟩
  | crash =>
    obtain ⟨hphase, heq⟩ := Option.ite_none_left_eq_some.mp hact
    cases heq
    exact ⟨h.setPlainPhase (.inl rfl), .inl ⟨rfl, by simp [Placed], .inr rfl⟩⟩

end Act

variable {s t : State ι} {e : ι × Action}

theorem step_eq_some (h : step sha256 s e = some t) :
    ∃ w', act sha256 s.final (s.writers e.1) e.2 = some (t.final, w') ∧
      t.writers = Function.update s.writers e.1 w' := by
  obtain ⟨⟨final', w'⟩, hact, rfl⟩ := Option.map_eq_some_iff.mp h
  exact ⟨w', hact, rfl⟩

omit [DecidableEq ι] in
theorem inv_start (workName : ι → String) (crossDevice : ι → Bool) :
    Inv sha256 (start workName crossDevice) := by
  refine ⟨fun i => ⟨by simp [start], by simp [start], by simp [start], ?_, by simp [start], by simp [start]⟩, .inl ?_⟩
  · intro rel hrel
    simp [start, Dict.keys] at hrel
  · exact ⟨rfl, fun j => by simp [Placed, start]⟩

omit [DecidableEq ι] in
theorem Inv.final_seal (h : Inv sha256 s) {tree : Tree} (hfinal : s.final = some tree) :
    tree.get? checksumsJson = some (.checksums (checksumsForDir sha256 tree)) := by
  rcases h.owned with ⟨hnone, -⟩ | ⟨i, tree', hfinal', hsealed, -, -⟩
  · rw [hnone] at hfinal
    cases hfinal
  · rw [hfinal'] at hfinal
    cases hfinal
    exact (h.writers i).sealedSeal _ hsealed

omit [DecidableEq ι] in
theorem Inv.final_ne_nil (h : Inv sha256 s) {tree : Tree} (hfinal : s.final = some tree) : tree.entries ≠ [] :=
  List.ne_nil_of_mem (Dict.get?_eq_some_iff.mp (h.final_seal hfinal))

theorem inv_step (h : Inv sha256 s) (hclean : Clean s e) (hstep : step sha256 s e = some t) : Inv sha256 t := by
  obtain ⟨w', hact, hwriters⟩ := step_eq_some hstep
  obtain ⟨hw', heffect⟩ := act_clean (h.writers e.1) (fun _ => h.final_ne_nil) hclean hact
  have hself : t.writers e.1 = w' := by rw [hwriters, Function.update_self]
  have hother : ∀ j, j ≠ e.1 → t.writers j = s.writers j := by
    intro j hj
    rw [hwriters, Function.update_of_ne hj]
  rcases heffect with ⟨hfinal, hplaced, hsealed⟩ | ⟨hnone, tree, hsome, hsealed, hnames⟩
  · refine ⟨fun j => ?_, ?_⟩
    · by_cases hj : j = e.1
      · rw [hj, hself]
        exact hw'
      · rw [hother j hj, hfinal]
        exact h.writers j
    · have hback : ∀ j, Placed (t.writers j) → Placed (s.writers j) := by
        intro j hj
        by_cases heq : j = e.1
        · rw [heq, hself] at hj
          rw [heq]
          exact hplaced hj
        · rwa [hother j heq] at hj
      rcases h.owned with ⟨hnone, hnobody⟩ | ⟨i, tree, hsome, hsealedi, hnames, howner⟩
      · exact .inl ⟨hfinal.trans hnone, fun j hj => hnobody j (hback j hj)⟩
      · refine .inr ⟨i, tree, hfinal.trans hsome, ?_, hnames, fun j hj => howner j (hback j hj)⟩
        by_cases hi : i = e.1
        · rw [hi] at hsealedi
          rw [hi, hself]
          rcases hsealed with hunsealed | hsame
          · rw [hunsealed] at hsealedi
            cases hsealedi
          · exact hsame.trans hsealedi
        · rw [hother i hi]
          exact hsealedi
  · have hnobody : ∀ j, ¬Placed (s.writers j) := by
      rcases h.owned with ⟨-, hnobody⟩ | ⟨i, tree', hsome', -, -, -⟩
      · exact hnobody
      · rw [hnone] at hsome'
        cases hsome'
    refine ⟨fun j => ?_, .inr ⟨e.1, tree, hsome, by rw [hself]; exact hsealed, hnames, fun j hj => ?_⟩⟩
    · by_cases hj : j = e.1
      · rw [hj, hself]
        exact hw'
      · rw [hother j hj]
        have hinv := h.writers j
        refine ⟨hinv.unsealed, hinv.sealedWork, hinv.sealedSeal, hinv.paths, fun hinside => ?_, hinv.copying⟩
        obtain ⟨tree', hsome', -⟩ := hinv.inside hinside
        rw [hnone] at hsome'
        cases hsome'
    · by_contra hne
      rw [hother j hne] at hj
      exact hnobody j hj

theorem verifyChecksums_sealed {tree : Tree}
    (hseal : tree.get? checksumsJson = some (.checksums (checksumsForDir sha256 tree))) :
    verifyChecksums sha256 tree = .ok () ↔ NoNestedSeal tree := by
  have hload : loadChecksums tree = .ok (checksumsForDir sha256 tree) := by
    unfold loadChecksums
    rw [hseal]
  unfold verifyChecksums
  rw [hload]
  exact verifyChecksumsAgainst_checksumsForDir

omit [DecidableEq ι] in
theorem Inv.holds (h : Inv sha256 s) : HoldsOneFileSet sha256 s := by
  rcases h.owned with ⟨hnone, -⟩ | ⟨i, tree, hsome, hsealed, hnames, -⟩
  · exact .inl hnone
  · have hseal := (h.writers i).sealedSeal tree hsealed
    exact .inr ⟨i, tree, tree, hsome, hsealed, fun _ => rfl, (verifyChecksums_sealed hseal).mpr hnames⟩

theorem verifyChecksums_foreign {tree tree' : Tree} {rel : RelPath}
    (hseal : tree.get? checksumsJson = some (.checksums (checksumsForDir sha256 tree)))
    (hseal' : tree'.get? checksumsJson = tree.get? checksumsJson) (hrel : rel ∈ tree'.keys)
    (hne : rel ≠ checksumsJson) (hnew : rel ∉ tree.keys) : verifyChecksums sha256 tree' ≠ .ok () := by
  have hload : loadChecksums tree' = .ok (checksumsForDir sha256 tree) := by
    unfold loadChecksums
    rw [hseal', hseal]
  intro hverify
  unfold verifyChecksums at hverify
  rw [hload] at hverify
  have hknown := (verifyChecksumsAgainst_ok_iff.mp hverify).1 rel hrel hne
  obtain ⟨digest, hdigest⟩ := Option.isSome_iff_exists.mp (Dict.get?_isSome_iff.mpr hknown)
  obtain ⟨-, c, hc, -⟩ := get?_checksumsForDir.mp hdigest
  exact hnew (Dict.mem_keys_of_get? hc)

theorem verifyChecksums_empty : verifyChecksums sha256 {} ≠ .ok () := by
  intro h
  cases h

omit [DecidableEq ι] in
theorem HoldsOneFileSet.verified (h : HoldsOneFileSet sha256 s) {tree : Tree} (hfinal : s.final = some tree) :
    verifyChecksums sha256 tree = .ok () := by
  rcases h with hnone | ⟨i, tree', fileSet, hfinal', -, -, hverified⟩
  · rw [hnone] at hfinal
    cases hfinal
  · rw [hfinal'] at hfinal
    cases hfinal
    exact hverified

theorem act_defect {final final' : Option Tree} {w w' : Writer} (h : WriterInv sha256 final w)
    (hseal : ∀ tree, final = some tree →
      tree.get? checksumsJson = some (.checksums (checksumsForDir sha256 tree)))
    {a : Action} (hdefect : ¬CleanAct final w a) (hact : act sha256 final w a = some (final', w')) :
    ∃ tree, final' = some tree ∧ verifyChecksums sha256 tree ≠ .ok () := by
  -- A copy into the directory `tree` that was there.
  have hcopy : ∀ target remaining rel content, w.phase = .copying target remaining →
      ∃ tree, (some ((final.getD {}).set (destination w target rel) content)) = some tree ∧
        verifyChecksums sha256 tree ≠ .ok () := by
    intro target remaining rel content hphase
    obtain ⟨rfl, -⟩ := h.copying target remaining hphase
    obtain ⟨tree, hfinal, hfree⟩ := h.inside (.inr ⟨remaining, hphase⟩)
    have hsealOld := hseal tree hfinal
    have hne : w.workName :: rel ≠ checksumsJson := by
      intro heq
      exact hfree checksumsJson (Dict.mem_keys_of_get? hsealOld) (by rw [← heq]; rfl)
    refine ⟨_, rfl, verifyChecksums_foreign hsealOld ?_ (mem_keys_set.mpr (.inl rfl)) hne ?_⟩
    · rw [hfinal]
      exact Dict.get?_set_of_ne hne.symm
    · exact fun hmem => hfree _ hmem rfl
  unfold CleanAct at hdefect
  unfold act at hact
  cases a with
  | move =>
    cases hphase : w.phase with
    | resolved target =>
      have hsealed := h.sealedWork (by simp [hphase]) (by simp [hphase]) (by simp [hphase]) (by simp [hphase])
      have hworkSeal := h.sealedSeal w.work hsealed
      rw [hphase] at hact
      have heq := Option.some.inj hact
      cases target with
      | final =>
        simp only [hphase, not_or, not_and, Bool.not_eq_true, Option.isSome_eq_false_iff,
          Option.isNone_iff_eq_none] at hdefect
        obtain ⟨rfl, hnested⟩ := hdefect
        by_cases hcross : w.crossDevice = true
        · have hmove : moveTo none w .final = (some {}, { w with phase := .copying .final w.work.keys }) :=
            if_pos hcross
          rw [hmove] at heq
          cases heq
          exact ⟨_, rfl, verifyChecksums_empty⟩
        · have hmove : moveTo none w .final = (some w.work, { w with phase := .moved }) := if_neg hcross
          rw [hmove] at heq
          cases heq
          refine ⟨_, rfl, fun hverified => ?_⟩
          exact hnested (by simpa using hcross) ((verifyChecksums_sealed hworkSeal).mp hverified)
      | inside =>
        simp only [hphase] at hdefect
        have hmove : moveTo final w .inside =
            (some (placeInside w.workName w.work (final.getD {})), { w with phase := .moved }) := if_neg hdefect
        rw [hmove] at heq
        cases heq
        obtain ⟨tree, hfinal, hfree⟩ := h.inside (.inl hphase)
        have hsealOld := hseal tree hfinal
        have hhead := hfree checksumsJson (Dict.mem_keys_of_get? hsealOld)
        have hnew : w.workName :: checksumsJson ∈ (placeInside w.workName w.work (final.getD {})).keys :=
          placeInside_keys.mpr (.inr ⟨checksumsJson, Dict.mem_keys_of_get? hworkSeal, rfl⟩)
        refine ⟨_, rfl, verifyChecksums_foreign hsealOld ?_ hnew (by simp [checksumsJson]) ?_⟩
        · rw [placeInside_get? hhead, hfinal]
          rfl
        · exact fun hmem => hfree _ hmem rfl
    | _ => simp [hphase] at hact
  | copyPartly rel content =>
    cases hphase : w.phase with
    | copying target remaining =>
      simp only [hphase] at hact
      obtain ⟨-, heq⟩ := Option.ite_none_right_eq_some.mp hact
      cases heq
      exact hcopy target remaining rel content hphase
    | _ => simp [hphase] at hact
  | copy rel =>
    cases hphase : w.phase with
    | copying target remaining =>
      simp only [hphase] at hact
      obtain ⟨-, heq⟩ := Option.ite_none_right_eq_some.mp hact
      obtain ⟨content, -, heq⟩ := Option.map_eq_some_iff.mp heq
      cases heq
      exact hcopy target remaining rel content hphase
    | _ => simp [hphase] at hact
  | _ => exact absurd trivial hdefect

theorem step_defect (h : Inv sha256 s) (hdefect : ¬Clean s e) (hstep : step sha256 s e = some t) :
    ¬HoldsOneFileSet sha256 t := by
  obtain ⟨w', hact, -⟩ := step_eq_some hstep
  obtain ⟨tree, hfinal, hverify⟩ := act_defect (h.writers e.1) (fun _ => h.final_seal) hdefect hact
  exact fun hholds => hverify (hholds.verified hfinal)

theorem final_kept (h : Inv sha256 s) (hclean : Clean s e) (hstep : step sha256 s e = some t) {tree : Tree}
    (hfinal : s.final = some tree) : t.final = some tree := by
  obtain ⟨w', hact, -⟩ := step_eq_some hstep
  obtain ⟨-, ⟨hsame, -⟩ | ⟨hnone, -⟩⟩ := act_clean (h.writers e.1) (fun _ => h.final_ne_nil) hclean hact
  · exact hsame.trans hfinal
  · rw [hnone] at hfinal
    cases hfinal

/-- What finalisation promises of all states on the way of a run. -/
structure AtomicFinalisation (sha256 : Content → String) (s : State ι) (events : List (ι × Action)) : Prop where
  complete : ∀ t, Reached (step sha256) s events t → HoldsOneFileSet sha256 t
  exclusive : ∀ t, Reached (step sha256) s events t → ∀ i j, (t.writers i).phase = .returned →
    (t.writers j).phase = .returned → i = j
  lasting : ∀ t u, Before (step sha256) s events t u → ∀ tree expected, t.final = some tree →
    verifyChecksumsAgainst sha256 tree expected = .ok () →
      ∃ tree', u.final = some tree' ∧ verifyChecksumsAgainst sha256 tree' expected = .ok ()

/-- Finalisation is atomic in exactly the runs that take clean steps only. -/
theorem finalisation_atomic_iff (workName : ι → String) (crossDevice : ι → Bool) (events : List (ι × Action)) :
    AtomicFinalisation sha256 (start workName crossDevice) events ↔
      ∀ t e u, Taken (step sha256) (start workName crossDevice) events t e u → Clean t e := by
  have hstart : Inv sha256 (start workName crossDevice) := inv_start workName crossDevice
  have hiff : (∀ t e u, Taken (step sha256) (start workName crossDevice) events t e u → Clean t e) ↔
      ∀ t, Reached (step sha256) (start workName crossDevice) events t → HoldsOneFileSet sha256 t :=
    forall_taken_iff_forall_reached hstart (fun _ _ _ => inv_step) (fun _ => Inv.holds) fun _ _ _ => step_defect
  constructor
  · exact fun h => hiff.mpr h.complete
  · intro hclean
    have hinv : ∀ t, Reached (step sha256) (start workName crossDevice) events t → Inv sha256 t :=
      fun t => reached_induction hstart fun t e u ht htaken =>
        inv_step ht (hclean t e u htaken) htaken.choose_spec.2.2
    refine ⟨hiff.mp hclean, fun t ht i j hi hj => ?_, fun t u hbefore tree expected hfinal hverify => ?_⟩
    · rcases (hinv t ht).owned with ⟨-, hnobody⟩ | ⟨k, -, -, -, -, howner⟩
      · exact absurd (.inr hi) (hnobody i)
      · exact (howner i (.inr hi)).trans (howner j (.inr hj)).symm
    · refine ⟨tree, before_induction (p := fun v => v.final = some tree) hfinal (fun v e w hv htaken => ?_)
        hbefore, hverify⟩
      exact final_kept (hinv v htaken.reached.1) (hclean v e w htaken) htaken.choose_spec.2.2 hv

def sampleDigest : Content → String := fun _ => "digest"

def sampleStart : State Bool :=
  start (fun i => if i then "research-run-a" else "research-run-b") fun _ => false

def sampleEvents : List (Bool × Action) :=
  [(true, .enter), (false, .enter), (true, .write ["metrics.json"] (.bytes [1])),
   (false, .write ["metrics.json"] (.bytes [2])), (true, .writeSeal), (false, .writeSeal), (true, .check),
   (false, .check), (true, .resolve), (true, .move), (true, .finish), (false, .resolve), (false, .move),
   (false, .finish)]

theorem racing_writers : ¬AtomicFinalisation sampleDigest sampleStart sampleEvents := by
  intro h
  have hphases : (run (step sampleDigest) sampleStart sampleEvents).map
      (fun t => ((t.writers true).phase, (t.writers false).phase)) = some (.returned, .returned) := by
    decide +kernel
  obtain ⟨t, hrun, hreturned⟩ := Option.map_eq_some_iff.mp hphases
  obtain ⟨htrue, hfalse⟩ := Prod.mk.inj hreturned
  exact absurd (h.exclusive t ⟨sampleEvents, List.prefix_rfl, hrun⟩ true false htrue hfalse) (by decide)

end TradingBot.Research.AtomicFinalise
