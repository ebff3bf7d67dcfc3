import TradingBot.Library.Trace
import TradingBot.Research.Robustness

namespace TradingBot.Research.ValidationStudy

open Library.OverlayLog Library.Trace Research.Artifacts
open Research.Robustness (strip)

inductive StudyDecisionOutcome
  | accept | reject | inconclusive
deriving DecidableEq, Repr

inductive StudyStatus
  | «open» | decided
deriving DecidableEq, Repr

structure StudyDecision where
  outcome : StudyDecisionOutcome
  rationale : String
  decidedBy : String
  decidedAt : String
  evidenceSnapshotId : String
deriving DecidableEq, Repr

structure StudyRecord where
  studyId : String
  snapshotId : String
  status : StudyStatus := .open
  decision : Option StudyDecision := none
deriving DecidableEq, Repr

structure SidecarRecord where
  decision : StudyDecision
  actor : String
  recordedAt : String
deriving DecidableEq, Repr

inductive DecideError
  | keyError (studyId : String)
  | valueError (message : String)
  | writeError (message field reason : String)
deriving DecidableEq, Repr

/-- The fields of a request, those that are missing as the empty text. -/
structure DecidePayload where
  outcome : String
  rationale : String
  decidedBy : String
deriving DecidableEq, Repr

structure DecideRequest where
  outcome : StudyDecisionOutcome
  rationale : String
  decidedBy : String
deriving DecidableEq, Repr

def parseOutcome : String → Except DecideError StudyDecisionOutcome
  | "accept" => .ok .accept
  | "reject" => .ok .reject
  | "inconclusive" => .ok .inconclusive
  | _ => .error (.writeError "outcome muss 'accept', 'reject' oder 'inconclusive' sein" "outcome" "ungültig")

/-- The checks of `decide` before it reads the study. -/
def parsePayload (payload : DecidePayload) : Except DecideError DecideRequest := do
  let outcome ← parseOutcome (strip payload.outcome)
  let rationale := strip payload.rationale
  if rationale = "" then .error (.writeError "rationale ist erforderlich" "rationale" "erforderlich")
  else
    let decidedBy := strip payload.decidedBy
    .ok { outcome, rationale, decidedBy := if decidedBy = "" then "dashboard" else decidedBy }

section Store

/-- The lines of `validation/registry.jsonl`, and those of the sidecar of the study at hand. -/
structure StudyFiles where
  lines : List StudyRecord
  sidecar : List SidecarRecord := []

def StudyFiles.get (files : StudyFiles) (studyId : String) : Option StudyRecord :=
  (byKey (·.studyId) files.lines).get? studyId

/-- The part of `record_decision` before its first write. -/
def checkRecord (files : StudyFiles) (studyId : String) (decision : StudyDecision) : Except DecideError StudyRecord :=
  match files.get studyId with
  | none => .error (.keyError studyId)
  | some entry =>
    if entry.status = .decided then .error (.valueError ("validation study already decided: " ++ studyId))
    else if decision.evidenceSnapshotId ≠ entry.snapshotId then
      .error (.valueError ("decision evidence_snapshot_id does not match study snapshot: decision='" ++
        decision.evidenceSnapshotId ++ "' study='" ++ entry.snapshotId ++ "'"))
    else .ok entry

def decidedRecord (entry : StudyRecord) (decision : StudyDecision) : StudyRecord :=
  { entry with status := .decided, decision := some decision }

end Store

section Deciders

/-- How far a call of `decide` is; the last two are inside `record_decision`. -/
inductive Phase
  | idle
  | asked (request : DecideRequest)
  | read (request : DecideRequest) (record : StudyRecord)
  | deciding (decision : StudyDecision)
  | checked (entry : StudyRecord) (decision : StudyDecision)
  | marked (entry : StudyRecord) (decision : StudyDecision)
deriving DecidableEq, Repr

/-- Between the write to the sidecar and the one to the log. -/
def Phase.between : Phase → Bool
  | .marked _ _ => true
  | _ => false

structure State (P : Type) where
  files : StudyFiles
  phases : P → Phase := fun _ => .idle

/-- Each read and each write is a step. The verification of the snapshot reads other stores. -/
inductive Event (P : Type)
  | decide (p : P) (payload : DecidePayload)
  | read (p : P)
  | verify (p : P) (verified : Bool) (decidedAt : String)
  | check (p : P)
  | writeSidecar (p : P) (recordedAt : String)
  | writeLog (p : P)
  | crash (p : P)

variable {P : Type} [DecidableEq P] (studyId : String)

def State.set (s : State P) (p : P) (phase : Phase) : State P := { s with phases := Function.update s.phases p phase }

def step (s : State P) : Event P → Option (State P)
  | .decide p payload =>
    match s.phases p, parsePayload payload with
    | .idle, .ok request => some (s.set p (.asked request))
    | _, _ => none
  | .read p =>
    match s.phases p with
    | .asked request =>
      match s.files.get studyId with
      | none => some (s.set p .idle)
      | some record => some (s.set p (.read request record))
    | _ => none
  | .verify p verified decidedAt =>
    match s.phases p with
    | .read request record =>
      if verified then
        some (s.set p (.deciding
          { outcome := request.outcome, rationale := request.rationale, decidedBy := request.decidedBy, decidedAt
            evidenceSnapshotId := record.snapshotId }))
      else some (s.set p .idle)
    | _ => none
  | .check p =>
    match s.phases p with
    | .deciding decision =>
      match checkRecord s.files studyId decision with
      | .error _ => some (s.set p .idle)
      | .ok entry => some (s.set p (.checked entry decision))
    | _ => none
  | .writeSidecar p recordedAt =>
    match s.phases p with
    | .checked entry decision =>
      some { s.set p (.marked entry decision) with
        files := { s.files with sidecar := s.files.sidecar ++ [⟨decision, decision.decidedBy, recordedAt⟩] } }
    | _ => none
  | .writeLog p =>
    match s.phases p with
    | .marked entry decision =>
      some { s.set p .idle with files := { s.files with lines := s.files.lines ++ [decidedRecord entry decision] } }
    | _ => none
  | .crash p => some (s.set p .idle)

/-- The study has been created and nobody has begun to decide on it. -/
def start (P : Type) (others : List StudyRecord) (snapshotId : String) : State P where
  files := { lines := others.filter (·.studyId ≠ studyId) ++ [{ studyId, snapshotId }] }

def logDecisions (lines : List StudyRecord) : List StudyDecision :=
  (lines.filter (·.studyId = studyId)).filterMap (·.decision)

def sidecarDecisions (files : StudyFiles) : List StudyDecision := files.sidecar.map (·.decision)

/-- At most one decision is recorded, and outside of a write of it the sidecar and the log have the same. -/
structure DecidedOnce (s : State P) : Prop where
  recorded : (sidecarDecisions s.files).length ≤ 1
  logged : (logDecisions studyId s.files.lines).length ≤ 1
  agree : (∀ p, (s.phases p).between = false) → sidecarDecisions s.files = logDecisions studyId s.files.lines

def Event.process : Event P → P
  | .decide p _ | .read p | .verify p _ _ | .check p | .writeSidecar p _ | .writeLog p | .crash p => p

def Event.writesSidecar : Event P → Bool
  | .writeSidecar _ _ => true
  | _ => false

/-- One process goes on from its check to its write of the sidecar although another one was between its two writes at
the check, or has written the sidecar since. -/
def Overlap (s : State P) (events : List (Event P)) : Prop :=
  ∃ before p since recordedAt t u,
    before ++ .check p :: since ++ [.writeSidecar p recordedAt] <+: events ∧ (∀ e ∈ since, e.process ≠ p) ∧
    run (step studyId) s before = some t ∧
    run (step studyId) s (before ++ .check p :: since ++ [.writeSidecar p recordedAt]) = some u ∧
    ((∃ q, (t.phases q).between = true) ∨ ∃ e ∈ since, e.writesSidecar = true)

def CrashBetween (s : State P) (events : List (Event P)) : Prop :=
  ∃ t p u, Taken (step studyId) s events t (.crash p) u ∧ (t.phases p).between = true

end Deciders

section Once

variable {P : Type} [DecidableEq P] {studyId : String} {s s' : State P} {e : Event P} {p q : P} {phase : Phase}
  {entry : StudyRecord} {decision : StudyDecision}

/-- A record that a decision goes on with is one of the study. -/
def Phase.About (studyId : String) : Phase → Prop
  | .checked entry _ | .marked entry _ => entry.studyId = studyId
  | _ => True

/-- Either nobody is between the two writes and the decisions agree, or one process is and its decision is the only
one. -/
def Settled (studyId : String) (s : State P) : Prop :=
  (∀ p, (s.phases p).between = false) ∧ sidecarDecisions s.files = logDecisions studyId s.files.lines ∧
      (sidecarDecisions s.files).length ≤ 1 ∨
    ∃ p entry decision, s.phases p = .marked entry decision ∧ (∀ q, q ≠ p → (s.phases q).between = false) ∧
      sidecarDecisions s.files = [decision] ∧ logDecisions studyId s.files.lines = []

structure Inv (studyId : String) (s : State P) : Prop where
  about : ∀ p, (s.phases p).About studyId
  settled : Settled studyId s
  newest : logDecisions studyId s.files.lines ≠ [] → ∃ entry, s.files.get studyId = some entry ∧ entry.status = .decided

/-- A sidecar is written only where there is none, and no crash comes between the two writes. -/
def Clean (s : State P) : Event P → Prop
  | .writeSidecar _ _ => s.files.sidecar = []
  | .crash p => (s.phases p).between = false
  | _ => True

@[simp] theorem set_phases : (s.set p phase).phases q = if q = p then phase else s.phases q := by
  simp [State.set, Function.update_apply]

omit [DecidableEq P] in
theorem inv_decidedOnce (h : Inv studyId s) : DecidedOnce studyId s := by
  rcases h.settled with ⟨-, hagree, hlength⟩ | ⟨p, entry, decision, hp, -, hsidecar, hlog⟩
  · exact ⟨hlength, hagree ▸ hlength, fun _ => hagree⟩
  · refine ⟨by rw [hsidecar]; exact le_rfl, by rw [hlog]; exact Nat.zero_le _, fun hnone => ?_⟩
    have hbetween := hnone p
    rw [hp] at hbetween
    cases hbetween

omit [DecidableEq P] in
theorem logDecisions_start (others : List StudyRecord) (snapshotId : String) :
    logDecisions studyId (start studyId P others snapshotId).files.lines = [] := by
  have hothers : (others.filter (·.studyId ≠ studyId)).filter (·.studyId = studyId) = [] := by
    rw [List.filter_filter, List.filter_eq_nil_iff]
    simp
  simp only [start, logDecisions, List.filter_append, hothers]
  simp

omit [DecidableEq P] in
theorem inv_start (others : List StudyRecord) (snapshotId : String) : Inv studyId (start studyId P others snapshotId) := by
  refine ⟨fun _ => trivial, .inl ⟨fun _ => rfl, ?_, Nat.zero_le _⟩, fun h => ?_⟩
  · rw [logDecisions_start]
    rfl
  · exact absurd (logDecisions_start others snapshotId) h

theorem about_set (h : ∀ p, (s.phases p).About studyId) (hphase : phase.About studyId) :
    ∀ q, ((s.set p phase).phases q).About studyId := by
  intro q
  rw [set_phases]
  split_ifs
  · exact hphase
  · exact h q

/-- A process that neither was nor is between the two writes changes nothing of the files. -/
theorem Inv.set (h : Inv studyId s) (hp : (s.phases p).between = false) (hphase : phase.between = false)
    (habout : phase.About studyId) : Inv studyId (s.set p phase) := by
  refine ⟨about_set h.about habout, ?_, h.newest⟩
  rcases h.settled with ⟨hnone, hagree⟩ | ⟨q, entry, decision, hq, hothers, hrest⟩
  · refine .inl ⟨fun q => ?_, hagree⟩
    rw [set_phases]
    split_ifs
    · exact hphase
    · exact hnone q
  · have hne : q ≠ p := by
      rintro rfl
      rw [hq] at hp
      cases hp
    refine .inr ⟨q, entry, decision, by rw [set_phases, if_neg hne, hq], fun q' hq' => ?_, hrest⟩
    rw [set_phases]
    split_ifs
    · exact hphase
    · exact hothers q' hq'

theorem checkRecord_studyId {files : StudyFiles} (h : checkRecord files studyId decision = .ok entry) :
    entry.studyId = studyId := by
  unfold checkRecord at h
  cases hget : files.get studyId with
  | none =>
    rw [hget] at h
    cases h
  | some entry' =>
    simp only [hget] at h
    split_ifs at h
    cases h
    rw [StudyFiles.get, byKey_get?] at hget
    exact (newest_mem hget).2

theorem logDecisions_append (lines : List StudyRecord) (hid : entry.studyId = studyId) :
    logDecisions studyId (lines ++ [decidedRecord entry decision]) = logDecisions studyId lines ++ [decision] := by
  simp [logDecisions, List.filter_append, decidedRecord, hid]

theorem get_decidedRecord {files : StudyFiles} (hid : entry.studyId = studyId) :
    StudyFiles.get { files with lines := files.lines ++ [decidedRecord entry decision] } studyId =
      some (decidedRecord entry decision) := by
  exact byKey_get?.trans (newest_append.trans (if_pos hid))

theorem inv_writeSidecar {recordedAt : String} (h : Inv studyId s) (hclean : s.files.sidecar = [])
    (hstep : step studyId s (.writeSidecar p recordedAt) = some s') : Inv studyId s' := by
  simp only [step] at hstep
  split at hstep
  · next entry decision hp =>
    cases hstep
    have habout := h.about p
    rw [hp] at habout
    refine ⟨about_set h.about habout, .inr ⟨p, entry, decision, by simp, fun q hq => ?_, ?_, ?_⟩, h.newest⟩
    · change ((s.set p _).phases q).between = false
      rw [set_phases, if_neg hq]
      rcases h.settled with ⟨hnone, -⟩ | ⟨q', _, _, -, -, hsidecar, -⟩
      · exact hnone q
      · rw [sidecarDecisions, hclean] at hsidecar
        cases hsidecar
    · simp [sidecarDecisions, hclean]
    · rcases h.settled with ⟨-, hagree, -⟩ | ⟨q', _, _, -, -, -, hlog⟩
      · change logDecisions studyId s.files.lines = []
        rw [← hagree, sidecarDecisions, hclean]
        rfl
      · exact hlog
  · cases hstep

theorem inv_writeLog (h : Inv studyId s) (hstep : step studyId s (.writeLog p) = some s') : Inv studyId s' := by
  simp only [step] at hstep
  split at hstep
  · next entry decision hp =>
    cases hstep
    have habout := h.about p
    rw [hp] at habout
    refine ⟨about_set h.about trivial, .inl ?_, fun _ => ⟨_, get_decidedRecord habout, rfl⟩⟩
    rcases h.settled with ⟨hnone, -⟩ | ⟨q, entry', decision', hq, hothers, hsidecar, hlog⟩
    · have hbetween := hnone p
      rw [hp] at hbetween
      cases hbetween
    · have hpq : p = q := by
        by_contra hne
        have hbetween := hothers p hne
        rw [hp] at hbetween
        cases hbetween
      subst hpq
      rw [hp, Phase.marked.injEq] at hq
      obtain ⟨rfl, rfl⟩ := hq
      have hlog' : logDecisions studyId (s.files.lines ++ [decidedRecord entry decision]) = [decision] := by
        rw [logDecisions_append _ habout, hlog]
        rfl
      refine ⟨fun q => ?_, hsidecar.trans hlog'.symm, (congrArg List.length hsidecar).le⟩
      change ((s.set p .idle).phases q).between = false
      rw [set_phases]
      split_ifs with hq
      · rfl
      · exact hothers q hq
  · cases hstep

theorem inv_step (h : Inv studyId s) (hclean : Clean s e) (hstep : step studyId s e = some s') : Inv studyId s' := by
  cases e with
  | decide p payload =>
    simp only [step] at hstep
    split at hstep <;> cases hstep
    next hp _ => exact h.set (by rw [hp]; rfl) rfl trivial
  | read p =>
    simp only [step] at hstep
    split at hstep
    · next hp =>
      split at hstep <;> cases hstep
      · exact h.set (by rw [hp]; rfl) rfl trivial
      · exact h.set (by rw [hp]; rfl) rfl trivial
    · cases hstep
  | verify p verified decidedAt =>
    simp only [step] at hstep
    split at hstep
    · next hp =>
      split_ifs at hstep <;> cases hstep
      · exact h.set (by rw [hp]; rfl) rfl trivial
      · exact h.set (by rw [hp]; rfl) rfl trivial
    · cases hstep
  | check p =>
    simp only [step] at hstep
    split at hstep
    · next hp =>
      split at hstep <;> cases hstep
      · exact h.set (by rw [hp]; rfl) rfl trivial
      · next hcheck => exact h.set (by rw [hp]; rfl) rfl (checkRecord_studyId hcheck)
    · cases hstep
  | writeSidecar p recordedAt => exact inv_writeSidecar h hclean hstep
  | writeLog p => exact inv_writeLog h hstep
  | crash p =>
    cases hstep
    exact h.set hclean rfl trivial

theorem not_decidedOnce_of_defect (h : Inv studyId s) (hdefect : ¬ Clean s e) (hstep : step studyId s e = some s') :
    ¬ DecidedOnce studyId s' := by
  cases e with
  | writeSidecar p recordedAt =>
    simp only [step] at hstep
    split at hstep
    · cases hstep
      intro honce
      have hlength := honce.recorded
      simp only [sidecarDecisions, List.map_append, List.length_append, List.length_map, List.map_cons, List.map_nil,
        List.length_cons, List.length_nil] at hlength
      have hsome := List.length_pos_iff.mpr hdefect
      omega
    · cases hstep
  | crash p =>
    cases hstep
    intro honce
    rcases h.settled with ⟨hnone, -⟩ | ⟨q, entry, decision, hq, hothers, hsidecar, hlog⟩
    · exact hdefect (hnone p)
    · have hpq : p = q := by
        by_contra hne
        exact hdefect (hothers p hne)
      subst hpq
      have hagree := honce.agree fun q => by
        rw [set_phases]
        split_ifs with hq'
        · rfl
        · exact hothers q hq'
      change sidecarDecisions s.files = logDecisions studyId s.files.lines at hagree
      rw [hsidecar, hlog] at hagree
      cases hagree
  | decide p payload => exact absurd trivial hdefect
  | read p => exact absurd trivial hdefect
  | verify p verified decidedAt => exact absurd trivial hdefect
  | check p => exact absurd trivial hdefect
  | writeLog p => exact absurd trivial hdefect

/-- What a step changes: the phase of its process, and the sidecar where it writes it. -/
structure Does (studyId : String) (s : State P) (e : Event P) (s' : State P) : Prop where
  others : ∀ q, q ≠ e.process → s'.phases q = s.phases q
  sidecar : if e.writesSidecar then s'.files.sidecar ≠ [] else s'.files.sidecar = s.files.sidecar
  checked : ∀ entry decision, s'.phases e.process = .checked entry decision →
    e = .check e.process ∧ checkRecord s.files studyId decision = .ok entry
  between : (s'.phases e.process).between = true → s'.files.sidecar ≠ []

theorem Does.set (he : e.writesSidecar = false) (hbetween : phase.between = false)
    (hchecked : ∀ entry decision, phase = .checked entry decision →
      e = .check e.process ∧ checkRecord s.files studyId decision = .ok entry) :
    Does studyId s e (s.set e.process phase) where
  others q hq := by rw [set_phases, if_neg hq]
  sidecar := by
    rw [he]
    rfl
  checked entry decision h := by
    rw [set_phases, if_pos rfl] at h
    exact hchecked entry decision h
  between h := by
    rw [set_phases, if_pos rfl, hbetween] at h
    cases h

theorem step_does (h : step studyId s e = some s') : Does studyId s e s' := by
  cases e with
  | decide p payload =>
    simp only [step] at h
    split at h <;> cases h
    exact .set rfl rfl fun _ _ hphase => nomatch hphase
  | read p =>
    simp only [step] at h
    split at h
    · split at h <;> cases h <;> exact .set rfl rfl fun _ _ hphase => nomatch hphase
    · cases h
  | verify p verified decidedAt =>
    simp only [step] at h
    split at h
    · split_ifs at h <;> cases h <;> exact .set rfl rfl fun _ _ hphase => nomatch hphase
    · cases h
  | check p =>
    simp only [step] at h
    split at h
    · split at h <;> cases h
      · exact .set rfl rfl fun _ _ hphase => nomatch hphase
      · next hcheck =>
        refine .set rfl rfl fun entry' decision' hphase => ?_
        cases hphase
        exact ⟨rfl, hcheck⟩
    · cases h
  | writeSidecar p recordedAt =>
    simp only [step] at h
    split at h
    · next entry decision hp =>
      cases h
      have hphases : ∀ q, (s.set p (.marked entry decision)).phases q =
          if q = p then .marked entry decision else s.phases q := fun q => set_phases
      refine ⟨fun q hq => (hphases q).trans (if_neg hq), by simp [Event.writesSidecar], fun entry' decision' hphase => ?_,
        fun _ => by simp⟩
      cases ((hphases p).trans (if_pos rfl)).symm.trans hphase
    · cases h
  | writeLog p =>
    simp only [step] at h
    split at h
    · cases h
      have hset : Does studyId s (.writeLog p) (s.set p .idle) := .set rfl rfl fun _ _ hphase => nomatch hphase
      refine ⟨hset.others, hset.sidecar, fun entry decision hphase => ?_, hset.between⟩
      cases (hset.checked entry decision hphase).1
    · cases h
  | crash p =>
    cases h
    exact .set rfl rfl fun _ _ hphase => nomatch hphase

section Runs

variable {t : State P} {events done since : List (Event P)}

theorem run_sidecar (h : run (step studyId) s since = some t) :
    if since.any (·.writesSidecar) then t.files.sidecar ≠ [] else t.files.sidecar = s.files.sidecar := by
  induction since using List.reverseRecOn generalizing t with
  | nil =>
    cases h
    rfl
  | append_singleton since e ih =>
    rw [run_concat] at h
    obtain ⟨u, hu, hstep⟩ := Option.bind_eq_some_iff.mp h
    have hsidecar := (step_does hstep).sidecar
    rw [List.any_append, List.any_cons, List.any_nil, Bool.or_false]
    cases he : e.writesSidecar with
    | true =>
      rw [he] at hsidecar
      simpa using hsidecar
    | false =>
      rw [he, if_neg Bool.false_ne_true] at hsidecar
      rw [hsidecar, Bool.or_false]
      exact ih hu

theorem sidecar_of_between (hidle : ∀ p, (s.phases p).between = false) (h : run (step studyId) s done = some t)
    (hp : (t.phases p).between = true) : t.files.sidecar ≠ [] := by
  induction done using List.reverseRecOn generalizing t with
  | nil =>
    cases h
    rw [hidle] at hp
    cases hp
  | append_singleton done e ih =>
    rw [run_concat] at h
    obtain ⟨u, hu, hstep⟩ := Option.bind_eq_some_iff.mp h
    have hdoes := step_does hstep
    by_cases he : p = e.process
    · exact hdoes.between (he ▸ hp)
    · rw [hdoes.others p he] at hp
      have hsidecar := hdoes.sidecar
      split_ifs at hsidecar
      · exact hsidecar
      · rw [hsidecar]
        exact ih hu hp

/-- A process that may write the sidecar has passed its check before, and none of its own events came since. -/
theorem exists_check (hidle : ∀ p entry decision, s.phases p ≠ .checked entry decision)
    (h : run (step studyId) s done = some t) (hp : t.phases p = .checked entry decision) :
    ∃ before since u, done = before ++ .check p :: since ∧ (∀ e ∈ since, e.process ≠ p) ∧
      run (step studyId) s before = some u ∧ checkRecord u.files studyId decision = .ok entry := by
  induction done using List.reverseRecOn generalizing t with
  | nil =>
    cases h
    exact absurd hp (hidle p entry decision)
  | append_singleton done e ih =>
    rw [run_concat] at h
    obtain ⟨u, hu, hstep⟩ := Option.bind_eq_some_iff.mp h
    have hdoes := step_does hstep
    by_cases he : p = e.process
    · subst he
      obtain ⟨hcheck, hentry⟩ := hdoes.checked entry decision hp
      exact ⟨done, [], u, by rw [← hcheck], nofun, hu, hentry⟩
    · rw [hdoes.others p he] at hp
      obtain ⟨before, since, v, rfl, hsince, hv, hentry⟩ := ih hu hp
      refine ⟨before, since ++ [e], v, by simp, fun e' he' => ?_, hv, hentry⟩
      rcases List.mem_append.mp he' with hmem | hmem
      · exact hsince e' hmem
      · rw [List.mem_singleton.mp hmem]
        exact Ne.symm he

end Runs

section Decided

variable {snapshotId : String} {others : List StudyRecord} {t : State P} {events done : List (Event P)}

omit [DecidableEq P] in
/-- The check fails once the only decision is in the log. -/
theorem checkRecord_raises (h : Inv studyId s) (hnone : ∀ p, (s.phases p).between = false)
    (hsome : s.files.sidecar ≠ []) : checkRecord s.files studyId decision ≠ .ok entry := by
  have hlog : logDecisions studyId s.files.lines ≠ [] := by
    rcases h.settled with ⟨-, hagree, -⟩ | ⟨p, _, _, hp, -⟩
    · rw [← hagree, sidecarDecisions, ne_eq, List.map_eq_nil_iff]
      exact hsome
    · have hbetween := hnone p
      rw [hp] at hbetween
      cases hbetween
  obtain ⟨newest, hget, hdecided⟩ := h.newest hlog
  intro hcheck
  rw [checkRecord, hget] at hcheck
  simp only [hdecided, if_pos] at hcheck
  cases hcheck

/-- Without an overlap and without a crash between the writes the invariant holds on the whole way. -/
theorem inv_of_no_overlap (hoverlap : ¬ Overlap studyId (start studyId P others snapshotId) events)
    (hcrash : ¬ CrashBetween studyId (start studyId P others snapshotId) events) (hdone : done <+: events)
    (h : run (step studyId) (start studyId P others snapshotId) done = some t) : Inv studyId t := by
  induction hn : done.length using Nat.strong_induction_on generalizing done t with
  | _ n ih =>
    rcases List.eq_nil_or_concat done with rfl | ⟨past, e, rfl⟩
    · cases h
      exact inv_start others snapshotId
    · rw [List.concat_eq_append] at *
      rw [run_concat] at h
      obtain ⟨u, hu, hstep⟩ := Option.bind_eq_some_iff.mp h
      have hpast := (List.prefix_append past [e]).trans hdone
      rw [List.length_append, List.length_singleton] at hn
      have hinv : Inv studyId u := ih past.length (by omega) hpast hu rfl
      refine inv_step hinv ?_ hstep
      cases e with
      | writeSidecar p recordedAt =>
        by_contra hsome
        change u.files.sidecar ≠ [] at hsome
        obtain ⟨entry, decision, hp⟩ : ∃ entry decision, u.phases p = .checked entry decision := by
          simp only [step] at hstep
          split at hstep
          · next entry decision hp => exact ⟨entry, decision, hp⟩
          · cases hstep
        obtain ⟨before, since, v, rfl, hsince, hv, hcheck⟩ := exists_check nofun hu hp
        have hbefore := ih before.length (by simp at hn; omega)
          ((List.prefix_append before _).trans hpast) hv rfl
        -- The overlap is what let the check pass: otherwise it has seen the decision in the log.
        refine hoverlap ⟨before, p, since, recordedAt, v, t, hdone, hsince, hv, ?_, ?_⟩
        · rw [run_concat, hu]
          exact hstep
        · by_contra hnone
          push Not at hnone
          refine checkRecord_raises hbefore (fun q => Bool.eq_false_iff.mpr (hnone.1 q)) ?_ hcheck
          have hrun : run (step studyId) v (.check p :: since) = some u := by
            unfold run at hu hv ⊢
            rw [List.foldlM_append, hv] at hu
            exact hu
          have hkept := run_sidecar hrun
          rw [if_neg] at hkept
          · rwa [← hkept]
          · simp only [List.any_cons, Event.writesSidecar, Bool.false_or, List.any_eq_true, not_exists, not_and]
            exact hnone.2
      | crash p =>
        by_contra hbetween
        exact hcrash ⟨u, p, t, ⟨past, hdone, hu, hstep⟩, Bool.not_eq_false _ ▸ hbetween⟩
      | _ => trivial

theorem overlap_defect (h : Overlap studyId (start studyId P others snapshotId) events) :
    ∃ t e u, Taken (step studyId) (start studyId P others snapshotId) events t e u ∧ ¬ Clean t e := by
  obtain ⟨before, p, since, recordedAt, v, w, hevents, -, hv, hw, hother⟩ := h
  rw [run_concat] at hw
  obtain ⟨u, hu, hstep⟩ := Option.bind_eq_some_iff.mp hw
  refine ⟨u, .writeSidecar p recordedAt, w, ⟨_, hevents, hu, hstep⟩, ?_⟩
  change u.files.sidecar ≠ []
  have hrun : run (step studyId) v (.check p :: since) = some u := by
    unfold run at hu hv ⊢
    rw [List.foldlM_append, hv] at hu
    exact hu
  have hsidecar := run_sidecar hrun
  rcases hother with ⟨q, hq⟩ | ⟨e, he, hwrites⟩
  · split_ifs at hsidecar
    · exact hsidecar
    · rw [hsidecar]
      exact sidecar_of_between (fun _ => rfl) hv hq
  · rw [if_pos] at hsidecar
    · exact hsidecar
    · exact List.any_eq_true.mpr ⟨e, List.mem_cons_of_mem _ he, hwrites⟩

/-- A study is decided once in every state of an interleaving exactly if no process goes on from its check to its
writes while another one is writing a decision, and none crashes between its two writes. -/
theorem decided_once_iff (studyId snapshotId : String) (others : List StudyRecord) (events : List (Event P)) :
    (∀ t, Reached (step studyId) (start studyId P others snapshotId) events t → DecidedOnce studyId t) ↔
      ¬ Overlap studyId (start studyId P others snapshotId) events ∧
        ¬ CrashBetween studyId (start studyId P others snapshotId) events := by
  constructor
  · intro honce
    have hclean := (forall_taken_iff_forall_reached (inv_start others snapshotId) (fun _ _ _ => inv_step)
      (fun _ => inv_decidedOnce) fun _ _ _ => not_decidedOnce_of_defect).mpr honce
    refine ⟨fun hoverlap => ?_, fun ⟨t, p, u, htaken, hbetween⟩ => ?_⟩
    · obtain ⟨t, e, u, htaken, hdefect⟩ := overlap_defect hoverlap
      exact hdefect (hclean t e u htaken)
    · have hclean := hclean t _ u htaken
      rw [Clean, hbetween] at hclean
      cases hclean
  · rintro ⟨hoverlap, hcrash⟩ t ⟨done, hdone, hrun⟩
    exact inv_decidedOnce (inv_of_no_overlap hoverlap hcrash hdone hrun)

end Decided

section Sample

def racing : List (Event Bool) :=
  [.decide false ⟨"accept", "edge", "a"⟩, .read false, .verify false true "t1", .check false,
    .decide true ⟨"reject", "no edge", "b"⟩, .read true, .verify true true "t2", .check true,
    .writeSidecar false "t3", .writeLog false, .writeSidecar true "t4", .writeLog true]

/-- Both decisions are recorded. -/
theorem racing_deciders_decide_twice : ∃ t,
    Reached (step "study_1") (start "study_1" Bool [] "snap_1") racing t ∧
      (logDecisions "study_1" t.files.lines).map (·.outcome) = [.accept, .reject] ∧ ¬ DecidedOnce "study_1" t := by
  refine ⟨_, ⟨racing, List.prefix_rfl, rfl⟩, by decide +kernel, fun h => ?_⟩
  have hlength := h.logged
  revert hlength
  decide +kernel

end Sample

end Once

end TradingBot.Research.ValidationStudy
