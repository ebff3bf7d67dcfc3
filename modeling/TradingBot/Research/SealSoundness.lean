import TradingBot.Library.Digests
import TradingBot.Research.AtomicFinalise

namespace TradingBot.Research.SealSoundness

open Library.Dictionary Library.Trace Research.Artifacts Research.ArtifactWriter Research.Metrics
open Research.AtomicFinalise (SameFiles)

section Alone

variable (sha256 : Content → String)

/-- A step of a writer that nobody else finalises beside. -/
def stepAlone (s : Option Tree × Writer) (a : Action) : Option (Option Tree × Writer) := act sha256 s.1 s.2 a

def startAlone (workName : String) (crossDevice : Bool) : Option Tree × Writer :=
  (none, { workName, crossDevice })

def writeFile (tree : Tree) : Action → Tree
  | .write rel content => tree.set rel content
  | _ => tree

def written (actions : List Action) : Tree := actions.foldl writeFile {}

/-- The part of the work directory that is copied is there, and nothing else. -/
structure Copied (work tree : Tree) (remaining : List RelPath) : Prop where
  own : ∀ rel ∈ tree.keys, rel ∈ work.keys
  done : ∀ rel ∈ work.keys, rel ∉ remaining → tree.get? rel = work.get? rel

def Alone (files : Tree) (final : Option Tree) (w : Writer) : Prop :=
  match w.phase with
  | .fresh => final = none ∧ w.work = {} ∧ files = {}
  | .writing => final = none ∧ w.work = files
  | .sealed | .checked | .resolved .final => final = none ∧ w.work = sealedTree sha256 files
  | .copying .final remaining =>
    w.work = sealedTree sha256 files ∧ remaining ⊆ w.work.keys ∧ ∃ tree, final = some tree ∧ Copied w.work tree remaining
  | .moved | .returned => ∃ tree, final = some tree ∧ SameFiles tree (sealedTree sha256 files)
  | .resolved .inside | .copying .inside _ | .raised => False
  | .crashed => True

variable {sha256 : Content → String} {files work tree : Tree} {remaining : List RelPath} {rel : RelPath}
  {content : Content}

theorem Copied.partly (h : Copied work tree remaining) (hsub : remaining ⊆ work.keys) (hrel : rel ∈ remaining) :
    Copied work (tree.set rel content) remaining := by
  constructor
  · intro rel' hrel'
    cases mem_keys_set.mp hrel' with
    | inl heq => exact heq ▸ hsub hrel
    | inr hmem => exact h.own rel' hmem
  · intro rel' hrel' hdone
    have hne : rel' ≠ rel := fun heq => hdone (heq ▸ hrel)
    rw [Dict.get?_set_of_ne hne]
    exact h.done rel' hrel' hdone

theorem Copied.whole (h : Copied work tree remaining) (hcontent : work.get? rel = some content) :
    Copied work (tree.set rel content) (remaining.erase rel) := by
  constructor
  · intro rel' hrel'
    cases mem_keys_set.mp hrel' with
    | inl heq => exact heq ▸ Dict.mem_keys_of_get? hcontent
    | inr hmem => exact h.own rel' hmem
  · intro rel' hrel' hdone
    by_cases heq : rel' = rel
    · rw [heq, Dict.get?_set_self, hcontent]
    · rw [Dict.get?_set_of_ne heq]
      exact h.done rel' hrel' fun hmem => hdone ((List.mem_erase_of_ne heq).mpr hmem)

theorem Copied.same (h : Copied work tree []) : SameFiles tree work := by
  intro rel
  by_cases hrel : rel ∈ work.keys
  · exact h.done rel hrel List.not_mem_nil
  · have htree : rel ∉ tree.keys := fun hmem => hrel (h.own rel hmem)
    rw [Dict.get?_eq_none_iff.mpr hrel, Dict.get?_eq_none_iff.mpr htree]

variable {final final' : Option Tree} {w w' : Writer}

theorem alone_move (h : Alone sha256 files final w) {target : Target} (hphase : w.phase = .resolved target) :
    Alone sha256 files (moveTo final w target).1 (moveTo final w target).2 := by
  unfold Alone at h
  cases target with
  | inside =>
    rw [hphase] at h
    exact h.elim
  | final =>
    rw [hphase] at h
    obtain ⟨rfl, hwork⟩ := h
    by_cases hcross : w.crossDevice = true
    · have hmove : moveTo none w .final = (some {}, { w with phase := .copying .final w.work.keys }) := if_pos hcross
      rw [hmove]
      refine ⟨hwork, List.Subset.refl _, {}, rfl, ?_⟩
      exact ⟨fun rel hrel => absurd hrel List.not_mem_nil, fun rel hrel hdone => absurd hrel hdone⟩
    · have hmove : moveTo none w .final = (some w.work, { w with phase := .moved }) := if_neg hcross
      rw [hmove]
      exact ⟨w.work, rfl, fun rel => by rw [hwork]⟩

theorem alone_act (h : Alone sha256 files final w) {a : Action} (hact : act sha256 final w a = some (final', w')) :
    Alone sha256 (writeFile files a) final' w' := by
  cases a with
  | enter =>
    obtain ⟨hphase, heq⟩ := Option.ite_none_right_eq_some.mp hact
    cases heq
    unfold Alone at h
    rw [hphase] at h
    obtain ⟨rfl, hwork, hfiles⟩ := h
    exact ⟨rfl, hwork.trans hfiles.symm⟩
  | write rel content =>
    obtain ⟨⟨hphase, _⟩, heq⟩ := Option.ite_none_right_eq_some.mp hact
    cases heq
    unfold Alone at h ⊢
    simp only [hphase] at h ⊢
    exact ⟨h.1, by rw [h.2]; rfl⟩
  | writeSeal =>
    obtain ⟨hphase, heq⟩ := Option.ite_none_right_eq_some.mp hact
    cases heq
    unfold Alone at h
    rw [hphase] at h
    exact ⟨h.1, by rw [h.2]; rfl⟩
  | check =>
    obtain ⟨hphase, heq⟩ := Option.ite_none_right_eq_some.mp hact
    cases heq
    unfold Alone at h
    rw [hphase] at h
    obtain ⟨rfl, hwork⟩ := h
    exact ⟨rfl, hwork⟩
  | resolve =>
    obtain ⟨hphase, heq⟩ := Option.ite_none_right_eq_some.mp hact
    cases heq
    unfold Alone at h
    rw [hphase] at h
    obtain ⟨rfl, hwork⟩ := h
    exact ⟨rfl, hwork⟩
  | move =>
    unfold act at hact
    cases hphase : w.phase with
    | resolved target =>
      rw [hphase] at hact
      have hmoved := alone_move h hphase
      rwa [Option.some.inj hact] at hmoved
    | _ => simp [hphase] at hact
  | copyPartly rel content =>
    unfold act at hact
    cases hphase : w.phase with
    | copying target remaining =>
      simp only [hphase] at hact
      obtain ⟨hrel, heq⟩ := Option.ite_none_right_eq_some.mp hact
      cases heq
      unfold Alone at h ⊢
      cases target with
      | inside =>
        rw [hphase] at h
        exact h.elim
      | final =>
        simp only [hphase] at h ⊢
        obtain ⟨hwork, hsub, tree, rfl, hcopied⟩ := h
        exact ⟨hwork, hsub, _, rfl, hcopied.partly hsub hrel⟩
    | _ => simp [hphase] at hact
  | copy rel =>
    unfold act at hact
    cases hphase : w.phase with
    | copying target remaining =>
      simp only [hphase] at hact
      obtain ⟨hrel, heq⟩ := Option.ite_none_right_eq_some.mp hact
      obtain ⟨content, hcontent, heq⟩ := Option.map_eq_some_iff.mp heq
      cases heq
      unfold Alone at h
      cases target with
      | inside =>
        rw [hphase] at h
        exact h.elim
      | final =>
        rw [hphase] at h
        obtain ⟨hwork, hsub, tree, rfl, hcopied⟩ := h
        exact ⟨hwork, fun rel' hrel' => hsub (List.mem_of_mem_erase hrel'), _, rfl, hcopied.whole hcontent⟩
    | _ => simp [hphase] at hact
  | copied =>
    unfold act at hact
    cases hphase : w.phase with
    | copying target remaining =>
      cases remaining with
      | cons rel remaining => simp [hphase] at hact
      | nil =>
        simp only [hphase] at hact
        cases hact
        unfold Alone at h
        cases target with
        | inside =>
          rw [hphase] at h
          exact h.elim
        | final =>
          rw [hphase] at h
          obtain ⟨hwork, _, tree, rfl, hcopied⟩ := h
          exact ⟨tree, rfl, hwork ▸ hcopied.same⟩
    | _ => simp [hphase] at hact
  | finish =>
    obtain ⟨hphase, heq⟩ := Option.ite_none_right_eq_some.mp hact
    cases heq
    unfold Alone at h
    rw [hphase] at h
    exact h
  | crash =>
    obtain ⟨_, heq⟩ := Option.ite_none_left_eq_some.mp hact
    cases heq
    trivial

theorem alone_run {workName : String} {crossDevice : Bool} {actions : List Action} {s : Option Tree × Writer}
    (h : run (stepAlone sha256) (startAlone workName crossDevice) actions = some s) :
    Alone sha256 (written actions) s.1 s.2 := by
  induction actions using List.reverseRecOn generalizing s with
  | nil =>
    cases h
    exact ⟨rfl, rfl, rfl⟩
  | append_singleton actions a ih =>
    rw [run_concat] at h
    obtain ⟨t, ht, hstep⟩ := Option.bind_eq_some_iff.mp h
    rw [written, List.foldl_append]
    exact alone_act (ih ht) hstep

theorem mem_written {actions : List Action} :
    rel ∈ (written actions).keys ↔ ∃ content, .write rel content ∈ actions := by
  induction actions using List.reverseRecOn with
  | nil => simp [written, Dict.keys]
  | append_singleton actions a ih =>
    have hlast : written (actions ++ [a]) = writeFile (written actions) a := by
      rw [written, List.foldl_append]
      rfl
    simp only [hlast, List.mem_append, List.mem_singleton, exists_or, ← ih]
    cases a with
    | write rel' content' =>
      rw [writeFile, mem_keys_set, or_comm]
      simp
    | _ => simp [writeFile]

end Alone

section Soundness

variable (sha256 : Content → String)

/-- The sealed checksums accept the directory, and of all contents that it could have later those with the same
files beside the seal. -/
def SealSound (final : Option Tree) : Prop :=
  ∃ tree expected, final = some tree ∧ loadChecksums tree = .ok expected ∧
    verifyChecksumsAgainst sha256 tree expected = .ok () ∧
    ∀ later, verifyChecksumsAgainst sha256 later expected = .ok () ↔
      ∀ rel ≠ checksumsJson, later.get? rel = tree.get? rel

/-- No file below a subdirectory is written under the name of the seal. -/
def WritesNoNestedSeal (actions : List Action) : Prop :=
  ∀ rel content, .write rel content ∈ actions → rel ≠ checksumsJson → pathName rel ≠ "checksums.json"

variable {sha256} {files tree : Tree}

theorem verify_checksums_iff (hsha : Function.Injective sha256) (later : Tree)
    (hnames : ∀ rel ∈ files.keys, rel ≠ checksumsJson → pathName rel ≠ "checksums.json") :
    verifyChecksumsAgainst sha256 later (checksumsForDir sha256 files) = .ok () ↔
      ∀ rel ≠ checksumsJson, later.get? rel = files.get? rel := by
  rw [verifyChecksumsAgainst_ok_iff]
  constructor
  · rintro ⟨hknown, hdigests⟩ rel hrel
    cases hfile : files.get? rel with
    | some content =>
      have hname := hnames rel (Dict.mem_keys_of_get? hfile) hrel
      obtain ⟨content', hlater, hsame⟩ :=
        hdigests rel _ (get?_checksumsForDir.mpr ⟨hname, content, hfile, rfl⟩)
      rw [hlater, hsha hsame]
    | none =>
      apply Dict.get?_eq_none_iff.mpr
      intro hmem
      obtain ⟨digest, hdigest⟩ := Option.isSome_iff_exists.mp (Dict.get?_isSome_iff.mpr (hknown rel hmem hrel))
      obtain ⟨_, content, hcontent, _⟩ := get?_checksumsForDir.mp hdigest
      rw [hfile] at hcontent
      cases hcontent
  · intro hsame
    constructor
    · intro rel hmem hrel
      obtain ⟨content, hcontent⟩ := Option.isSome_iff_exists.mp (Dict.get?_isSome_iff.mpr hmem)
      rw [hsame rel hrel] at hcontent
      have hname := hnames rel (Dict.mem_keys_of_get? hcontent) hrel
      exact Dict.mem_keys_of_get? (get?_checksumsForDir.mpr ⟨hname, content, hcontent, rfl⟩)
    · intro rel digest hdigest
      obtain ⟨hname, content, hcontent, hsha⟩ := get?_checksumsForDir.mp hdigest
      have hrel : rel ≠ checksumsJson := by
        rintro rfl
        exact hname rfl
      exact ⟨content, (hsame rel hrel).trans hcontent, hsha⟩

theorem sealSound_iff (hsha : Function.Injective sha256) (hsame : SameFiles tree (sealedTree sha256 files)) :
    SealSound sha256 (some tree) ↔
      ∀ rel ∈ files.keys, rel ≠ checksumsJson → pathName rel ≠ "checksums.json" := by
  have hfile : ∀ rel ≠ checksumsJson, tree.get? rel = files.get? rel := by
    intro rel hrel
    rw [hsame rel]
    exact Dict.get?_set_of_ne hrel
  have hload : loadChecksums tree = .ok (checksumsForDir sha256 files) := by
    unfold loadChecksums
    rw [hsame checksumsJson, sealedTree_seal, checksumsForDir_sealedTree]
  constructor
  · rintro ⟨tree', expected, heq, hexpected, hverify, _⟩ rel hmem hrel
    obtain rfl := Option.some.inj heq
    obtain rfl : checksumsForDir sha256 files = expected := Except.ok.inj (hload.symm.trans hexpected)
    have htree : rel ∈ tree.keys := by
      rw [← Dict.get?_isSome_iff, hfile rel hrel]
      exact Dict.get?_isSome_iff.mpr hmem
    have hknown := (verifyChecksumsAgainst_ok_iff.mp hverify).1 rel htree hrel
    obtain ⟨digest, hdigest⟩ := Option.isSome_iff_exists.mp (Dict.get?_isSome_iff.mpr hknown)
    exact (get?_checksumsForDir.mp hdigest).1
  · intro hnames
    refine ⟨tree, _, rfl, hload, (verify_checksums_iff hsha tree hnames).mpr hfile, ?_⟩
    intro later
    rw [verify_checksums_iff hsha later hnames]
    exact forall₂_congr fun rel hrel => by rw [hfile rel hrel]

/-- The seal of a writer that finalises alone is sound if and only if no file below a subdirectory is called like
it. -/
theorem seal_sound_iff (sha256 : Content → String) (hsha : Function.Injective sha256) (workName : String)
    (crossDevice : Bool) (actions : List Action) (final : Option Tree) (w : Writer)
    (h : run (stepAlone sha256) (startAlone workName crossDevice) actions = some (final, w))
    (hreturned : w.phase = .returned) : SealSound sha256 final ↔ WritesNoNestedSeal actions := by
  have halone := alone_run h
  unfold Alone at halone
  simp only [hreturned] at halone
  obtain ⟨tree, rfl, hsame⟩ := halone
  rw [sealSound_iff hsha hsame]
  constructor
  · intro hnames rel content hwrite
    exact hnames rel (mem_written.mpr ⟨content, hwrite⟩)
  · intro hwrites rel hmem
    obtain ⟨content, hwrite⟩ := mem_written.mp hmem
    exact hwrites rel content hwrite

end Soundness

section Sample

instance countableDict {κ α : Type} [Countable κ] [Countable α] : Countable (Dict κ α) := by
  apply Function.Injective.countable (f := Dict.entries)
  intro d d' h
  cases d
  cases d'
  cases h
  rfl

instance countableUInt8 : Countable UInt8 := Function.Injective.countable fun _ _ => UInt8.toNat_inj.mp

deriving instance Countable for RunManifestDocument, ExperimentDocument, ReportStatus, FundingLabel, BenchmarkRef,
  ResearchMetrics, Content

def finalise (files : List (RelPath × Content)) : List Action :=
  .enter :: files.map (fun f => .write f.1 f.2) ++ [.writeSeal, .check, .resolve, .move, .finish]

theorem finalise_returns (sha256 : Content → String) (name : String) (rest : RelPath) (content : Content) :
    ∃ final w, run (stepAlone sha256) (startAlone "research-run-a" false) (finalise [(name :: rest, content)]) =
      some (final, w) ∧ w.phase = .returned :=
  ⟨_, _, rfl, rfl⟩

theorem seal_sound_sample : ∃ (sha256 : Content → String) (final : Option Tree),
    Function.Injective sha256 ∧ SealSound sha256 final := by
  obtain ⟨sha256, hsha⟩ := Library.Digests.exists_injective_text Content
  obtain ⟨final, w, hrun, hreturned⟩ := finalise_returns sha256 "charts" ["equity.json"] (.bytes [1])
  refine ⟨sha256, final, hsha, (seal_sound_iff sha256 hsha _ _ _ final w hrun hreturned).mpr ?_⟩
  intro rel content hwrite
  simp only [finalise, List.map_cons, List.map_nil, List.cons_append, List.nil_append, List.mem_cons,
    Action.write.injEq, reduceCtorEq, List.not_mem_nil, or_false, false_or] at hwrite
  rw [hwrite.1]
  decide

/-- The sealing leaves out a file that the verification then does not expect. -/
theorem nested_seal_rejected : ¬ ∀ (sha256 : Content → String) (workName : String) (crossDevice : Bool)
    (actions : List Action) (final : Option Tree) (w : Writer), Function.Injective sha256 →
    run (stepAlone sha256) (startAlone workName crossDevice) actions = some (final, w) → w.phase = .returned →
      SealSound sha256 final := by
  intro hclaim
  obtain ⟨sha256, hsha⟩ := Library.Digests.exists_injective_text Content
  obtain ⟨final, w, hrun, hreturned⟩ := finalise_returns sha256 "charts" ["checksums.json"] (.bytes [1])
  have halone := alone_run hrun
  unfold Alone at halone
  simp only [hreturned] at halone
  obtain ⟨tree', htree', hsame⟩ := halone
  have hsound := (sealSound_iff hsha hsame).mp (htree' ▸ hclaim sha256 _ _ _ final w hsha hrun hreturned)
  exact hsound ["charts", "checksums.json"] (mem_written.mpr ⟨.bytes [1], by simp [finalise]⟩) (by decide) rfl

end Sample

end TradingBot.Research.SealSoundness
