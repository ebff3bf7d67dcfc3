import TradingBot.Library.Trace
import TradingBot.Market.DatasetQuality

namespace TradingBot.Market.AppendConflicts

open Library.Outcome (except_bind_eq_ok mapError_eq_ok_iff)
open Library.Trace Market.Models Market.Repository Market.Quality Market.DatasetCatalog Market.DatasetQuality

section Catalogs

/-- A `PostgresDatasetCatalog`: the conflicts it remembers, and the candles that a call of `append_candles` has
read before its transaction. -/
structure Instance where
  appendConflicts : String → List CandleConflict := fun _ => []
  reading : Option (String × List Candle) := none

/-- One database and its catalog instances. `attempted` tells for which datasets an append came upon a stored
candle that differs; no step reads it. -/
structure State where
  db : CatalogDb := {}
  instances : ℕ → Instance := fun _ => {}
  attempted : String → Bool := fun _ => false

/-- The calls of the instances; `append` is in two parts, the read and the transaction. A restarted process
has a new instance. -/
inductive Event
  | register (record : RawArtifactRecord)
  | publish (manifest : DatasetManifest)
  | readExisting (i : ℕ) (datasetId : String)
  | append (i : ℕ) (candles : List Candle)
  | evaluate (i : ℕ) (datasetId : String) (symbol : Symbol) (timeframe : Timeframe) (evaluationTime : Time)
      (persist : Bool)
  | noteIssues (datasetId : String) (knownIssues : List String)
  | restart (i : ℕ)
deriving DecidableEq, Repr

def differsFromStored (rows : List Candle) (c : Candle) : Bool := rows.any fun stored => stored.key = c.key ∧ stored ≠ c

/-- Some candle that the loop comes to differs from the one stored under its key. -/
def attemptsConflict : List Candle → Append → Bool
  | [], _ => false
  | c :: cs, a =>
    differsFromStored a.rows c ||
      match appendCandle .postgres a c with
      | .error _ => false
      | .ok a' => attemptsConflict cs a'

def State.setInstance (t : State) (i : ℕ) (f : Instance → Instance) : State :=
  { t with instances := Function.update t.instances i (f (t.instances i)) }

/-- A failed write leaves the tables as they are. -/
def State.tables (t : State) : Except CatalogError CatalogDb → State
  | .ok db => { t with db }
  | .error _ => t

/-- What the transaction of an append leaves; the conflicts it noted stay in its instance also when it fails. -/
def State.appended (t : State) (i : ℕ) (datasetId : String) (existing candles : List Candle) : State :=
  let result := appendFrom .postgres existing t.db datasetId candles
  let noted := t.setInstance i fun catalog =>
    { appendConflicts := Function.update catalog.appendConflicts datasetId
        (catalog.appendConflicts datasetId ++ result.conflicts) }
  { noted with
    db := result.db
    attempted := Function.update t.attempted datasetId (t.attempted datasetId ||
      attemptsConflict candles { known := existing, rows := t.db.candles datasetId }) }

variable (digest : String → String)

def step (t : State) : Event → Option State
  | .register record => some (t.tables (registerRawArtifact t.db record))
  | .publish manifest => some (t.tables ((publishDataset digest .postgres t.db manifest).map Prod.snd))
  | .readExisting i datasetId =>
    some (t.setInstance i fun catalog => { catalog with reading := some (datasetId, listCandles t.db datasetId) })
  | .append i candles =>
    match (t.instances i).reading with
    | none => none
    | some (datasetId, existing) => some (t.appended i datasetId existing candles)
  | .evaluate i datasetId symbol timeframe evaluationTime persist =>
    match evaluateDatasetQuality t.db ((t.instances i).appendConflicts datasetId) datasetId symbol timeframe
      evaluationTime persist with
    | .error _ => some t
    | .ok (_, db) => some { t with db }
  | .noteIssues datasetId knownIssues => some (t.tables (updateManifestKnownIssues t.db datasetId knownIssues))
  | .restart i => some (t.setInstance i fun _ => {})

def Reported (t : State) : Event → Prop
  | .evaluate i datasetId symbol timeframe evaluationTime persist => t.attempted datasetId = true →
      ∀ record db, evaluateDatasetQuality t.db ((t.instances i).appendConflicts datasetId) datasetId symbol timeframe
        evaluationTime persist = .ok (record, db) → record.report.status = .invalid
  | _ => True

def Remembered (t : State) : Event → Prop
  | .evaluate i datasetId symbol timeframe evaluationTime persist => t.attempted datasetId = true →
      (evaluateDatasetQuality t.db ((t.instances i).appendConflicts datasetId) datasetId symbol timeframe
        evaluationTime persist).isOk = true →
      (t.instances i).appendConflicts datasetId ≠ [] ∨ ∃ c ∈ t.db.candles datasetId, Malformed c
  | _ => True

/-- Some candle that the loop comes to differs from the one it knows or finds under its key. -/
def meetsConflict : List Candle → Append → Bool
  | [], _ => false
  | c :: cs, a =>
    match appendCandle .postgres a c with
    | .error _ => false
    | .ok a' => ((a.known ++ a.rows).find? (·.key = c.key)).any (· ≠ c) || meetsConflict cs a'

/-- The event is an append in which the instance meets a conflict of the dataset. -/
def Meets (t : State) (i : ℕ) (d : String) : Event → Prop
  | .append j candles => j = i ∧ ∃ existing, (t.instances i).reading = some (d, existing) ∧
      (t.db.datasets d).isSome = true ∧ meetsConflict candles { known := existing, rows := t.db.candles d } = true
  | _ => False

/-- The instance met a conflict of the dataset since it was last started. -/
def HasMet (events : List Event) (i : ℕ) (d : String) : Prop :=
  ∃ past e later t, events = past ++ e :: later ∧ .restart i ∉ later ∧ run (step digest) {} past = some t ∧
    Meets t i d e

end Catalogs

section Memory

variable {digest : String → String} {t u : State} {e : Event} {i j : ℕ} {d : String} {a a' : Append} {c : Candle}
  {cs : List Candle}

theorem conflicts_keep (prior : Candle) : (a.keep prior c).conflicts ≠ [] ↔ a.conflicts ≠ [] ∨ prior ≠ c := by
  unfold Append.keep
  split_ifs with h <;> simp [h]

theorem conflicts_appendCandle (h : appendCandle .postgres a c = .ok a') : a'.conflicts ≠ [] ↔
    a.conflicts ≠ [] ∨ ((a.known ++ a.rows).find? (·.key = c.key)).any (· ≠ c) = true := by
  unfold appendCandle at h
  rw [List.find?_append]
  cases hknown : a.known.find? (·.key = c.key) with
  | some prior =>
    rw [hknown] at h
    cases h
    simp [conflicts_keep]
  | none =>
    simp only [hknown] at h
    cases hcolumns : Backend.columns .postgres c with
    | none => simp [hcolumns] at h
    | some stored =>
      cases hrow : a.rows.find? (·.key = c.key) with
      | some prior =>
        simp only [hcolumns, hrow] at h
        cases h
        simp [conflicts_keep]
      | none =>
        simp only [hcolumns, hrow] at h
        cases h
        simp

theorem conflicts_appendLoop : (appendLoop .postgres cs a).1.conflicts ≠ [] ↔
    a.conflicts ≠ [] ∨ meetsConflict cs a = true := by
  induction cs generalizing a with
  | nil => simp [appendLoop, meetsConflict]
  | cons c cs ih =>
    unfold appendLoop meetsConflict
    cases hstep : appendCandle .postgres a c with
    | error e => simp
    | ok a' =>
      simp only
      rw [ih, conflicts_appendCandle hstep, Bool.or_eq_true, or_assoc]

theorem conflicts_appendFrom {db : CatalogDb} {existing : List Candle} :
    (appendFrom .postgres existing db d cs).conflicts ≠ [] ↔
      (db.datasets d).isSome = true ∧ meetsConflict cs { known := existing, rows := db.candles d } = true := by
  cases hdataset : db.datasets d with
  | none => cases cs <;> simp [appendFrom, hdataset, appendLoop]
  | some m =>
    rw [appendFrom_published hdataset]
    have hloop := @conflicts_appendLoop { known := existing, rows := db.candles d } cs
    cases hrun : appendLoop .postgres cs { known := existing, rows := db.candles d } with
    | mk a outcome =>
      rw [hrun] at hloop
      cases outcome with
      | error e => simpa using hloop
      | ok _ => simpa using hloop

theorem instances_setInstance (f : Instance → Instance) :
    (t.setInstance j f).instances i = if i = j then f (t.instances j) else t.instances i :=
  Function.update_apply ..

theorem instances_appended (existing candles : List Candle) : ((t.appended j d existing candles).instances i) =
    if i = j then
      { appendConflicts := Function.update (t.instances j).appendConflicts d
          ((t.instances j).appendConflicts d ++ (appendFrom .postgres existing t.db d candles).conflicts) }
    else t.instances i :=
  Function.update_apply ..

@[simp] theorem instances_tables (written : Except CatalogError CatalogDb) :
    (t.tables written).instances = t.instances := by
  cases written <;> rfl

theorem remembers_step (hstep : step digest t e = some u) : (u.instances i).appendConflicts d ≠ [] ↔
    e ≠ .restart i ∧ ((t.instances i).appendConflicts d ≠ [] ∨ Meets t i d e) := by
  cases e with
  | register | publish | noteIssues =>
    cases hstep
    simp [Meets]
  | readExisting j d' =>
    cases hstep
    rw [instances_setInstance]
    split_ifs with hij
    · subst hij
      simp [Meets]
    · simp [Meets]
  | append j candles =>
    simp only [step] at hstep
    cases hreading : (t.instances j).reading with
    | none =>
      rw [hreading] at hstep
      cases hstep
    | some read =>
      obtain ⟨d', existing⟩ := read
      rw [hreading] at hstep
      cases hstep
      rw [instances_appended]
      by_cases hij : i = j
      · subst hij
        by_cases hd : d = d'
        · subst hd
          simp [Meets, hreading, ← conflicts_appendFrom, Function.update_self, imp_iff_not_or]
        · have hother : d' ≠ d := Ne.symm hd
          simp [Meets, hreading, Function.update_of_ne hd, hother]
      · have hother : j ≠ i := Ne.symm hij
        simp [Meets, hij, hother]
  | evaluate j d' symbol timeframe evaluationTime persist =>
    simp only [step] at hstep
    split at hstep <;> cases hstep <;> simp [Meets]
  | restart j =>
    cases hstep
    rw [instances_setInstance]
    by_cases hij : i = j
    · simp [hij]
    · have hother : j ≠ i := Ne.symm hij
      simp [Meets, hij, hother]

theorem hasMet_concat {events : List Event} (hrun : run (step digest) {} events = some t) :
    HasMet digest (events ++ [e]) i d ↔ e ≠ .restart i ∧ (HasMet digest events i d ∨ Meets t i d e) := by
  constructor
  · rintro ⟨past, e', later, s, hevents, hlater, hpast, hmeets⟩
    rcases List.eq_nil_or_concat later with rfl | ⟨later, e'', rfl⟩
    · obtain ⟨rfl, heq⟩ := List.append_inj' hevents rfl
      cases heq
      obtain rfl := Option.some.inj (hrun.symm.trans hpast)
      exact ⟨fun hrestart => by rw [hrestart] at hmeets; exact hmeets, .inr hmeets⟩
    · rw [List.concat_eq_append, ← List.cons_append, ← List.append_assoc] at hevents
      obtain ⟨rfl, heq⟩ := List.append_inj' hevents rfl
      cases heq
      rw [List.concat_eq_append, List.mem_append, not_or, List.mem_singleton] at hlater
      exact ⟨Ne.symm hlater.2, .inl ⟨past, e', later, s, rfl, hlater.1, hpast, hmeets⟩⟩
  · rintro ⟨hrestart, ⟨past, e', later, s, rfl, hlater, hpast, hmeets⟩ | hmeets⟩
    · refine ⟨past, e', later ++ [e], s, by simp, ?_, hpast, hmeets⟩
      rw [List.mem_append, not_or, List.mem_singleton]
      exact ⟨hlater, Ne.symm hrestart⟩
    · exact ⟨events, e, [], t, rfl, List.not_mem_nil, hrun, hmeets⟩

theorem remembers_iff_hasMet {events : List Event} (hrun : run (step digest) {} events = some t) :
    (t.instances i).appendConflicts d ≠ [] ↔ HasMet digest events i d := by
  induction events using List.reverseRecOn generalizing t with
  | nil =>
    cases hrun
    simp [HasMet]
  | append_singleton events e ih =>
    rw [run_concat] at hrun
    obtain ⟨s, hs, hstep⟩ := Option.bind_eq_some_iff.mp hrun
    rw [remembers_step hstep, ih hs, hasMet_concat hs]

end Memory

section Durability

variable {digest : String → String} {t u : State} {e : Event} {i : ℕ} {d : String}

/-- The rows of a dataset are one for each key, and what an instance has read of them is still there. -/
structure Inv (t : State) : Prop where
  nodup : ∀ d, ((t.db.candles d).map Candle.key).Nodup
  reading : ∀ i d existing, (t.instances i).reading = some (d, existing) →
    ∀ c ∈ existing, c.key ∈ (t.db.candles d).map Candle.key

theorem inv_start : Inv {} :=
  ⟨fun _ => List.nodup_nil, fun _ _ _ h => by cases h⟩

theorem Inv.setInstance (h : Inv t) (f : Instance → Instance)
    (hreading : ∀ d existing, (f (t.instances i)).reading = some (d, existing) →
      ∀ c ∈ existing, c.key ∈ (t.db.candles d).map Candle.key) : Inv (t.setInstance i f) := by
  refine ⟨h.nodup, fun j d existing hj => ?_⟩
  change (Function.update t.instances i (f (t.instances i)) j).reading = _ at hj
  by_cases hij : j = i
  · subst hij
    rw [Function.update_self] at hj
    exact hreading d existing hj
  · rw [Function.update_of_ne hij] at hj
    exact h.reading j d existing hj

theorem Inv.tables (h : Inv t) {written : Except CatalogError CatalogDb}
    (hcandles : ∀ db, written = .ok db → db.candles = t.db.candles) : Inv (t.tables written) := by
  cases written with
  | error error => exact h
  | ok db =>
    have hsame := hcandles db rfl
    refine ⟨fun d => ?_, fun i d existing hi => ?_⟩
    · change ((db.candles d).map Candle.key).Nodup
      rw [hsame]
      exact h.nodup d
    · change ∀ c ∈ existing, c.key ∈ (db.candles d).map Candle.key
      rw [hsame]
      exact h.reading i d existing hi

theorem candles_setManifest {db db' : CatalogDb} {f : DatasetManifest → DatasetManifest}
    (h : setManifest db d f = .ok db') : db'.candles = db.candles := by
  unfold setManifest getManifest at h
  cases hd : db.datasets d with
  | none =>
    rw [hd] at h
    cases h
  | some m =>
    rw [hd] at h
    cases h
    rfl

theorem candles_appendFrom {db : CatalogDb} {existing candles : List Candle}
    (hindexed : Append.Indexed { known := existing, rows := db.candles d }) (d' : String) :
    let db' := (appendFrom .postgres existing db d candles).db
    ((db.candles d').map Candle.key).Nodup →
      ((db'.candles d').map Candle.key).Nodup ∧
      ∀ k ∈ (db.candles d').map Candle.key, k ∈ (db'.candles d').map Candle.key := by
  intro db' hnodup
  have hsame : db' = db → ((db'.candles d').map Candle.key).Nodup ∧
      ∀ k ∈ (db.candles d').map Candle.key, k ∈ (db'.candles d').map Candle.key := by
    intro heq
    rw [heq]
    exact ⟨hnodup, fun k hk => hk⟩
  cases hdataset : db.datasets d with
  | none =>
    cases candles with
    | nil =>
      by_cases hd : d' = d
      · subst hd
        have hrows : db'.candles d' = db.candles d' := by
          simp only [db', appendFrom, hdataset, appendLoop, Function.update_self]
        rw [hrows]
        exact ⟨hnodup, fun k hk => hk⟩
      · have hrows : db'.candles d' = db.candles d' := by
          simp only [db', appendFrom, hdataset, appendLoop, Function.update_of_ne hd]
        rw [hrows]
        exact ⟨hnodup, fun k hk => hk⟩
    | cons c cs => exact hsame (by simp only [db', appendFrom, hdataset])
  | some m =>
    have happend : appendFrom .postgres existing db d candles = _ := appendFrom_published hdataset
    cases hloop : appendLoop .postgres candles { known := existing, rows := db.candles d } with
    | mk a outcome =>
      rw [hloop] at happend
      cases outcome with
      | error error => exact hsame (by simp only [db', happend])
      | ok _ =>
        obtain ⟨hindexed', -, firsts, stored, -, -, hrows⟩ := appendLoop_ok hindexed hloop
        have hcandles : db'.candles = Function.update db.candles d a.rows := by
          simp only [db', happend]
        rw [hcandles]
        by_cases hd : d' = d
        · subst hd
          rw [Function.update_self]
          refine ⟨hindexed'.nodup, fun k hk => ?_⟩
          rw [hrows, List.map_append]
          exact List.mem_append_left _ hk
        · rw [Function.update_of_ne hd]
          exact ⟨hnodup, fun k hk => hk⟩

theorem Inv.appended (h : Inv t) {existing : List Candle} (hi : (t.instances i).reading = some (d, existing))
    (candles : List Candle) : Inv (t.appended i d existing candles) := by
  have hindexed : Append.Indexed { known := existing, rows := t.db.candles d } :=
    ⟨h.nodup d, h.reading i d existing hi⟩
  have hrows : ∀ d', let db' := (appendFrom .postgres existing t.db d candles).db
      ((db'.candles d').map Candle.key).Nodup ∧
      ∀ k ∈ (t.db.candles d').map Candle.key, k ∈ (db'.candles d').map Candle.key :=
    fun d' => candles_appendFrom hindexed d' (h.nodup d')
  refine ⟨fun d' => (hrows d').1, fun j d' existing' hj c hc => (hrows d').2 _ ?_⟩
  change (Function.update t.instances i _ j).reading = _ at hj
  by_cases hij : j = i
  · subst hij
    rw [Function.update_self] at hj
    cases hj
  · rw [Function.update_of_ne hij] at hj
    exact h.reading j d' existing' hj c hc

theorem candles_evaluateDatasetQuality {db : CatalogDb} {appendConflicts : List CandleConflict} {symbol : Symbol}
    {timeframe : Timeframe} {evaluationTime : Time} {persist : Bool} {result : DatasetQualityReportRecord × CatalogDb}
    (h : evaluateDatasetQuality db appendConflicts d symbol timeframe evaluationTime persist = .ok result) :
    result.2.candles = db.candles := by
  unfold evaluateDatasetQuality at h
  obtain ⟨evaluated, -, h⟩ := except_bind_eq_ok.mp h
  obtain ⟨persisted, hpersisted, h⟩ := except_bind_eq_ok.mp h
  rw [mapError_eq_ok_iff] at hpersisted
  cases h
  unfold persistIf at hpersisted
  split_ifs at hpersisted
  · exact candles_setManifest hpersisted
  · cases hpersisted
    rfl

theorem inv_step (h : Inv t) (hstep : step digest t e = some u) : Inv u := by
  cases e with
  | register record =>
    cases hstep
    refine h.tables fun db hdb => ?_
    unfold registerRawArtifact at hdb
    split at hdb
    · split_ifs at hdb
      cases hdb
      rfl
    · cases hdb
      rfl
  | publish manifest =>
    cases hstep
    refine h.tables fun db hdb => ?_
    unfold publishDataset at hdb
    cases hcheck : checkPublication digest t.db manifest .postgres with
    | error error =>
      rw [hcheck] at hdb
      cases hdb
    | ok _ =>
      rw [hcheck] at hdb
      cases hdb
      rfl
  | readExisting i d =>
    cases hstep
    refine h.setInstance _ fun d' existing hd => ?_
    cases hd
    intro c hc
    exact List.mem_map_of_mem ((List.mem_insertionSort _).mp hc)
  | append i candles =>
    simp only [step] at hstep
    cases hreading : (t.instances i).reading with
    | none =>
      rw [hreading] at hstep
      cases hstep
    | some read =>
      rw [hreading] at hstep
      cases hstep
      exact h.appended hreading candles
  | evaluate i d symbol timeframe evaluationTime persist =>
    simp only [step] at hstep
    cases hevaluate : evaluateDatasetQuality t.db ((t.instances i).appendConflicts d) d symbol timeframe
        evaluationTime persist with
    | error error =>
      rw [hevaluate] at hstep
      cases hstep
      exact h
    | ok result =>
      rw [hevaluate] at hstep
      cases hstep
      have hcandles : ∀ db, (.ok result.2 : Except CatalogError CatalogDb) = .ok db → db.candles = t.db.candles := by
        intro db hdb
        cases hdb
        exact candles_evaluateDatasetQuality hevaluate
      exact h.tables hcandles
  | noteIssues d knownIssues =>
    cases hstep
    exact h.tables fun db hdb => candles_setManifest hdb
  | restart i =>
    cases hstep
    exact h.setInstance _ fun d existing hd => by cases hd

theorem remembered_iff_reported (h : Inv t) (e : Event) : Remembered t e ↔ Reported t e := by
  cases e with
  | evaluate i d symbol timeframe evaluationTime persist =>
    refine forall_congr' fun _ => ?_
    cases hevaluate : evaluateDatasetQuality t.db ((t.instances i).appendConflicts d) d symbol timeframe
        evaluationTime persist with
    | error error => exact iff_of_true (fun hok => by cases hok) (fun _ _ heq => by cases heq)
    | ok result =>
      obtain ⟨record, db⟩ := result
      have hinvalid := evaluateDatasetQuality_invalid_iff (h.nodup d) hevaluate
      constructor
      · intro hremembered record' db' heq
        cases heq
        exact hinvalid.mpr (hremembered rfl)
      · intro hreported _
        exact hinvalid.mp (hreported record db rfl)
  | register | publish | readExisting | append | noteIssues | restart => exact Iff.rfl

/-- In a run of calls through any instances over one database, every evaluation reports the conflicts attempted
before exactly if every such evaluation is one of an instance that remembers a conflict of the dataset itself, or
finds a malformed candle. An instance remembers what it met in its own appends since it was started. -/
theorem append_conflicts_durable_iff (digest : String → String) (events : List Event) :
    ((∀ t e u, Taken (step digest) {} events t e u → Remembered t e) ↔
      ∀ t e u, Taken (step digest) {} events t e u → Reported t e) ∧
    ∀ t, run (step digest) {} events = some t → ∀ i d,
      (t.instances i).appendConflicts d ≠ [] ↔ HasMet digest events i d := by
  refine ⟨?_, fun t hrun i d => remembers_iff_hasMet hrun⟩
  have hinv : ∀ t e u, Taken (step digest) {} events t e u → Inv t := fun t e u htaken =>
    reached_induction inv_start (fun _ _ _ hinv htaken => inv_step hinv htaken.choose_spec.2.2) htaken.reached.1
  refine forall_congr' fun t => forall_congr' fun e => forall_congr' fun u => forall_congr' fun htaken => ?_
  exact remembered_iff_reported (hinv t e u htaken) e

end Durability

section Samples

def sampleCandle (closePrice : Decimal) : Candle :=
  ⟨.BTC, .daily, 1704067200 * second, 1704153599 * second, 100, 110, 90, closePrice, 1, true⟩

def sampleManifest : DatasetManifest where
  source := "hyperliquid/mainnet"
  symbols := [.BTC]
  timeframes := [.daily]
  startTimestamp := 1704067200 * second
  endTimestamp := 1704153599 * second
  rowCount := 1
  contentHash := "content"
  rawDatasetId := "fetch"
  rawContentHash := "raw"
  codeCommit := "abc1234"
  createdAt := 1704153599 * second

/-- The first instance appends a candle, and then another one under its key. -/
def conflictingEvents : List Event :=
  [.register { rawDatasetId := "fetch", contentHash := "raw", storageRelpath := "raw/raw.json"
               source := "hyperliquid/mainnet" },
    .publish sampleManifest, .readExisting 0 "dataset", .append 0 [sampleCandle 105],
    .readExisting 0 "dataset", .append 0 [sampleCandle 107]]

def otherEvaluation : Event := .evaluate 1 "dataset" .BTC .daily (1704153599 * second) true

/-- It finds the dataset valid. -/
theorem other_instance_reports_valid : ¬∀ (digest : String → String) (events : List Event) (t u : State) (e : Event),
    Taken (step digest) {} events t e u → Reported t e := by
  intro hall
  have hrun : (run (step fun _ => "dataset") {} conflictingEvents).map (fun t => (t.attempted "dataset",
      (evaluateDatasetQuality t.db ((t.instances 1).appendConflicts "dataset") "dataset" .BTC .daily
        (1704153599 * second) true).map fun result => result.1.report.status)) = some (true, .ok .valid) := by
    decide +kernel
  obtain ⟨t, ht, heq⟩ := Option.map_eq_some_iff.mp hrun
  rw [Prod.mk.injEq] at heq
  obtain ⟨hattempted, hvalid⟩ := heq
  cases hevaluate : evaluateDatasetQuality t.db ((t.instances 1).appendConflicts "dataset") "dataset" .BTC .daily
      (1704153599 * second) true with
  | error error =>
    rw [hevaluate] at hvalid
    cases hvalid
  | ok result =>
    rw [hevaluate] at hvalid
    have hstep : step (fun _ => "dataset") t otherEvaluation = some { t with db := result.2 } := by
      simp only [step, otherEvaluation, hevaluate]
    have hinvalid := hall _ _ t _ otherEvaluation
      ⟨conflictingEvents, List.prefix_rfl, ht, hstep⟩ hattempted result.1 result.2 hevaluate
    have hstatus : result.1.report.status = .valid := Except.ok.inj hvalid
    rw [hinvalid] at hstatus
    cases hstatus

end Samples

end TradingBot.Market.AppendConflicts
