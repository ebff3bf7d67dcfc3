import TradingBot.Library.Outcome
import TradingBot.Library.Trace
import TradingBot.Market.HistoricalImport

namespace TradingBot.Market.ImportIntegrity

open Library.Trace Market.Models Market.ContentHash Market.Quality Market.DatasetCatalog Market.HistoricalImport
open Exceptions
open Library.Outcome (except_bind_eq_ok)

section Rows

instance : IsTrans CandleRow rowLe where
  trans a b c hab hbc := by
    unfold rowLe at *
    grind

instance : Std.Total rowLe where
  total a b := by
    unfold rowLe
    grind

def rowKey (r : CandleRow) : CandleKey := ⟨r.symbol, r.timeframe, r.openTime⟩

theorem rowKey_eq_of_rowLe {a b : CandleRow} (hab : rowLe a b) (hba : rowLe b a) : rowKey a = rowKey b := by
  unfold rowLe at hab hba
  have hsymbol : symbolRank a.symbol = symbolRank b.symbol := by omega
  have htimeframe : timeframeRank a.timeframe = timeframeRank b.timeframe := by omega
  have htime : a.openTime = b.openTime := by grind
  have hsymbols : a.symbol = b.symbol := by
    cases ha : a.symbol <;> cases hb : b.symbol <;> rw [ha, hb] at hsymbol <;> first | rfl | cases hsymbol
  have htimeframes : a.timeframe = b.timeframe := by
    cases ha : a.timeframe <;> cases hb : b.timeframe <;> rw [ha, hb] at htimeframe <;>
      first | rfl | cases htimeframe
  simp only [rowKey, hsymbols, htimeframes, htime]

/-- Two orders of one list with distinct keys are the same, if the keys come in the same order. -/
theorem eq_of_perm_of_map_eq {α κ : Type} {f : α → κ} {l l' : List α} (h : l.Perm l') (hmap : l.map f = l'.map f)
    (hnodup : (l.map f).Nodup) : l = l' := by
  induction l generalizing l' with
  | nil => exact h.nil_eq
  | cons a as ih =>
    cases l' with
    | nil => cases hmap
    | cons b bs =>
      rw [List.map_cons, List.map_cons, List.cons.injEq] at hmap
      obtain ⟨hab, hrest⟩ := hmap
      rw [List.map_cons, List.nodup_cons] at hnodup
      have heq : a = b := by
        rcases List.mem_cons.mp (h.mem_iff.mp List.mem_cons_self) with heq | hmem
        · exact heq
        · exact absurd (hrest ▸ List.mem_map_of_mem hmem) hnodup.1
      subst heq
      rw [ih (List.perm_cons a |>.mp h) hrest hnodup.2]

theorem sortCandleRows_perm {rows rows' : List CandleRow} (h : rows.Perm rows') (hnodup : (rows.map rowKey).Nodup) :
    sortCandleRows rows = sortCandleRows rows' := by
  have hperm := ((List.perm_insertionSort rowLe rows).trans h).trans (List.perm_insertionSort rowLe rows').symm
  refine hperm.eq_of_pairwise (fun a b ha hb hab hba => ?_) (List.pairwise_insertionSort rowLe rows)
    (List.pairwise_insertionSort rowLe rows')
  have ha' : a ∈ rows := (List.mem_insertionSort rowLe).mp ha
  have hb' : b ∈ rows := h.mem_iff.mpr ((List.mem_insertionSort rowLe).mp hb)
  exact List.inj_on_of_nodup_map hnodup ha' hb' (rowKey_eq_of_rowLe hab hba)

theorem hashNormalizedCandles_perm {sha256 : List CandleRow → String} {candles candles' : List Candle}
    (h : candles.Perm candles') (hnodup : (candles.map Candle.key).Nodup) :
    hashNormalizedCandles sha256 candles = hashNormalizedCandles sha256 candles' := by
  unfold hashNormalizedCandles
  rw [sortCandleRows_perm (h.map canonicalCandleRow)]
  rw [List.map_map]
  exact hnodup

end Rows

section Completeness

variable {backend : Backend} {batch rows : List Candle}

/-- A candle whose numbers the columns keep to the digits that are hashed. -/
def Kept (backend : Backend) (c : Candle) : Prop :=
  (backend.columns c).map canonicalCandleRow = some (canonicalCandleRow c)

/-- The candles of a dataset were appended, repeat no key and are kept by the columns. -/
structure Complete (backend : Backend) (batch rows : List Candle) : Prop where
  distinct : (batch.map Candle.key).Nodup
  kept : ∀ c ∈ batch, Kept backend c
  appended : rows ≠ []

structure StoredFrom (backend : Backend) (batch rows : List Candle) : Prop where
  nodup : (rows.map Candle.key).Nodup
  keys : ∀ c ∈ batch, c.key ∈ rows.map Candle.key
  firsts : ∃ firsts, firsts.Sublist batch ∧ List.Forall₂ (fun c s => backend.columns c = some s) firsts rows

theorem keys_eq_of_forall₂ {firsts : List Candle}
    (h : List.Forall₂ (fun c s => backend.columns c = some s) firsts rows) :
    rows.map Candle.key = firsts.map Candle.key := by
  induction h with
  | nil => rfl
  | cons hcolumns _ ih => rw [List.map_cons, List.map_cons, key_columns hcolumns, ih]

theorem rows_eq_iff_kept (h : List.Forall₂ (fun c s => backend.columns c = some s) batch rows) :
    rows.map canonicalCandleRow = batch.map canonicalCandleRow ↔ ∀ c ∈ batch, Kept backend c := by
  induction h with
  | nil => simp
  | cons hcolumns _ ih =>
    rw [List.map_cons, List.map_cons, List.cons.injEq, ih, List.forall_mem_cons, Kept, hcolumns, Option.map_some,
      Option.some.injEq]

theorem StoredFrom.length_eq_iff (h : StoredFrom backend batch rows) :
    rows.length = batch.length ↔ (batch.map Candle.key).Nodup := by
  obtain ⟨firsts, hsub, hforall⟩ := h.firsts
  have hkeys := keys_eq_of_forall₂ hforall
  constructor
  · intro hlength
    have hall : firsts = batch := hsub.eq_of_length (hforall.length_eq.trans hlength)
    rw [← hall, ← hkeys]
    exact h.nodup
  · intro hnodup
    have hsubset : batch.map Candle.key ⊆ rows.map Candle.key := by
      intro k hk
      obtain ⟨c, hc, rfl⟩ := List.mem_map.mp hk
      exact h.keys c hc
    have hle := (hnodup.subperm hsubset).length_le
    rw [List.length_map, List.length_map] at hle
    have hge := hsub.length_le
    rw [hforall.length_eq] at hge
    omega

theorem StoredFrom.all (h : StoredFrom backend batch rows) (hlength : rows.length = batch.length) :
    List.Forall₂ (fun c s => backend.columns c = some s) batch rows := by
  obtain ⟨firsts, hsub, hforall⟩ := h.firsts
  rwa [← hsub.eq_of_length (hforall.length_eq.trans hlength)]

theorem StoredFrom.hash_iff {sha256 : List CandleRow → String} (hsha : Function.Injective sha256)
    (h : StoredFrom backend batch rows) :
    hashNormalizedCandles sha256 rows = hashNormalizedCandles sha256 batch ∧ rows.length = batch.length ↔
      (batch.map Candle.key).Nodup ∧ ∀ c ∈ batch, Kept backend c := by
  rw [← h.length_eq_iff, and_comm]
  refine and_congr_right fun hlength => ?_
  have hall := h.all hlength
  rw [← rows_eq_iff_kept hall]
  constructor
  · intro hhash
    have hsorted := hsha hhash
    have hperm : (rows.map canonicalCandleRow).Perm (batch.map canonicalCandleRow) := by
      refine (List.perm_insertionSort rowLe _).symm.trans ?_
      unfold sortCandleRows at hsorted
      rw [hsorted]
      exact List.perm_insertionSort rowLe _
    refine eq_of_perm_of_map_eq (f := rowKey) hperm ?_ ?_
    · rw [List.map_map, List.map_map]
      exact keys_eq_of_forall₂ hall
    · rw [List.map_map]
      exact h.nodup
  · intro hrows
    unfold hashNormalizedCandles
    rw [hrows]

end Completeness

section Integrity

variable {digests : Digests} {json : Bytes → Except Exc (List SnapshotItem)} {backend : Backend}
  {s s' : State} {e : Event} {db db' : CatalogDb} {d : String} {m : DatasetManifest}

def Holds (digests : Digests) (db : CatalogDb) (datasetId : String) (m : DatasetManifest) : Prop :=
  hashNormalizedCandles digests.rows (listCandles db datasetId) = m.contentHash ∧
    (listCandles db datasetId).length = m.rowCount

structure Integrity (digests : Digests) (s : State) : Prop where
  results : ∀ r ∈ s.results, ∃ d, r.manifest.datasetId = some d ∧ Holds digests s.db d r.manifest
  checkpoints : ∀ job c d, s.checkpoints job = .saved c → c.publishedDataset = some d →
    ∃ m, s.db.datasets d = some m ∧ Holds digests s.db d m

/-- The dataset for which a call is about to save its last checkpoint or to return. -/
def finished : Phase → Option String
  | .saving _ _ datasetId _ => given (some datasetId)
  | .returning result => result.manifest.datasetId
  | _ => none

/-- A call finishes only with a complete dataset. -/
def Clean (backend : Backend) (s : State) (e : Event) : Prop :=
  e = .proceed → ∀ d, finished s.phase = some d → Complete backend (s.batches d) (s.db.candles d)

structure Published (digests : Digests) (backend : Backend) (batch rows : List Candle) (d : String)
    (m : DatasetManifest) : Prop where
  datasetId : m.datasetId = some d
  contentHash : m.contentHash = hashNormalizedCandles digests.rows batch
  rowCount : m.rowCount = batch.length
  nonempty : batch ≠ []
  stored : rows = [] ∨ StoredFrom backend batch rows

/-- What the phase of the current call says of the catalog. -/
def Expects (digests : Digests) (s : State) : Phase → Prop
  | .publishing _ _ m normalized => m.contentHash = hashNormalizedCandles digests.rows normalized ∧
      m.rowCount = normalized.length ∧ normalized ≠ []
  | .appending _ _ published datasetId normalized => s.db.datasets datasetId = some published ∧
      s.batches datasetId = normalized ∧ s.db.candles datasetId = []
  | .saving _ _ datasetId result => s.db.datasets datasetId = some result.manifest
  | .returning result => ∃ d, s.db.datasets d = some result.manifest
  | _ => True

structure Inv (digests : Digests) (backend : Backend) (s : State) : Prop where
  datasets : ∀ d m, s.db.datasets d = some m → Published digests backend (s.batches d) (s.db.candles d) d m
  unpublished : ∀ d, s.db.datasets d = none → s.db.candles d = []
  phase : Expects digests s s.phase
  results : ∀ r ∈ s.results, ∃ d, s.db.datasets d = some r.manifest ∧
    Complete backend (s.batches d) (s.db.candles d)
  checkpoints : ∀ job c d, s.checkpoints job = .saved c → c.publishedDataset = some d →
    (s.db.datasets d).isSome ∧ Complete backend (s.batches d) (s.db.candles d)

theorem Published.holds_iff (hsha : Function.Injective digests.rows) {batch : List Candle}
    (h : Published digests backend batch (db.candles d) d m) :
    Holds digests db d m ↔ Complete backend batch (db.candles d) := by
  have hperm : (listCandles db d).Perm (db.candles d) := List.perm_insertionSort _ _
  unfold Holds
  rw [h.contentHash, h.rowCount, hperm.length_eq]
  rcases h.stored with hnone | hstored
  · rw [hnone]
    constructor
    · rintro ⟨-, hlength⟩
      exact absurd (List.length_eq_zero_iff.mp hlength.symm) h.nonempty
    · intro hcomplete
      exact absurd rfl hcomplete.appended
  · have hhash : hashNormalizedCandles digests.rows (listCandles db d) =
        hashNormalizedCandles digests.rows (db.candles d) :=
      (hashNormalizedCandles_perm hperm.symm hstored.nodup).symm
    rw [hhash, hstored.hash_iff hsha]
    constructor
    · rintro ⟨hdistinct, hkept⟩
      refine ⟨hdistinct, hkept, fun hrows => ?_⟩
      obtain ⟨c, hc⟩ := List.exists_mem_of_ne_nil _ h.nonempty
      have hkey := hstored.keys c hc
      rw [hrows] at hkey
      cases hkey
    · intro hcomplete
      exact ⟨hcomplete.distinct, hcomplete.kept⟩

theorem Inv.integrity (hsha : Function.Injective digests.rows) (h : Inv digests backend s) :
    Integrity digests s := by
  refine ⟨fun r hr => ?_, fun job c d hc hd => ?_⟩
  · obtain ⟨d, hdataset, hcomplete⟩ := h.results r hr
    have hpublished := h.datasets d _ hdataset
    exact ⟨d, hpublished.datasetId, (hpublished.holds_iff hsha).mpr hcomplete⟩
  · obtain ⟨hdataset, hcomplete⟩ := h.checkpoints job c d hc hd
    obtain ⟨m, hm⟩ := Option.isSome_iff_exists.mp hdataset
    exact ⟨m, hm, ((h.datasets d m hm).holds_iff hsha).mpr hcomplete⟩

theorem inv_start : Inv digests backend {} := by
  refine ⟨fun _ _ h => ?_, fun _ _ => rfl, trivial, fun _ h => ?_, fun _ _ _ h => ?_⟩ <;> cases h

section Steps

theorem existingPublishedResult_eq_some {hash : String} {result : HistoricalImportResult}
    (h : existingPublishedResult db d hash = some result) : db.datasets d = some result.manifest := by
  unfold existingPublishedResult getManifest at h
  cases hd : db.datasets d with
  | none => simp [hd] at h
  | some m =>
    simp only [hd] at h
    cases h
    rfl

theorem checkpointResult_eq_some {checkpoint : Option ImportCheckpoint} {hash : String}
    {result : HistoricalImportResult} (h : checkpointResult db checkpoint hash = some result) :
    ∃ d, db.datasets d = some result.manifest := by
  unfold checkpointResult at h
  obtain ⟨c, -, h⟩ := Option.bind_eq_some_iff.mp h
  obtain ⟨d, -, h⟩ := Option.bind_eq_some_iff.mp h
  exact ⟨d, existingPublishedResult_eq_some h⟩

theorem enterImport_expects {request : ImportRequest} {fetchId : String} {now : Time} {phase : Phase}
    (h : enterImport digests json s request fetchId now = .ok phase) : Expects digests s phase := by
  unfold enterImport at h
  obtain ⟨evaluationTime, -, h⟩ := except_bind_eq_ok.mp h
  obtain ⟨existing, -, h⟩ := except_bind_eq_ok.mp h
  cases hcached : checkpointResult s.db existing (hashNormalizedCandles digests.rows []) with
  | some cached =>
    simp only [hcached] at h
    cases h
    exact checkpointResult_eq_some hcached
  | none =>
    simp only [hcached] at h
    cases hrecord : request.rawRecord with
    | none =>
      simp only [hrecord] at h
      cases h
      trivial
    | some record =>
      simp only [hrecord] at h
      cases h
      trivial

theorem enterRenormalize_expects {hash : String} {config : HistoricalImportConfig} {evaluationTime : Option Time}
    {fetchId : String} {now : Time} {phase : Phase}
    (h : enterRenormalize digests json s hash config evaluationTime fetchId now = .ok phase) :
    Expects digests s phase := by
  unfold enterRenormalize at h
  obtain ⟨payload, -, h⟩ := except_bind_eq_ok.mp h
  obtain ⟨evaluationTime, -, h⟩ := except_bind_eq_ok.mp h
  obtain ⟨normalized, -, h⟩ := except_bind_eq_ok.mp h
  cases hcached : existingPublishedResult s.db
      (deriveDatasetId digests.seed (hashNormalizedCandles digests.rows normalized) "1.0" config.source) hash with
  | some cached =>
    simp only [hcached] at h
    cases h
    exact ⟨_, existingPublishedResult_eq_some hcached⟩
  | none =>
    simp only [hcached] at h
    cases h
    trivial

theorem enterResume_expects {config : HistoricalImportConfig} {job : String} {evaluationTime : Option Time}
    {fetchId : String} {now : Time} {phase : Phase}
    (h : enterResume digests json s config job evaluationTime fetchId now = .ok phase) :
    Expects digests s phase := by
  unfold enterResume at h
  obtain ⟨checkpoint, -, h⟩ := except_bind_eq_ok.mp h
  cases checkpoint with
  | none => cases h
  | some checkpoint =>
    cases hcached : checkpointResult s.db (some checkpoint) "" with
    | some cached =>
      simp only [hcached] at h
      cases h
      exact checkpointResult_eq_some hcached
    | none =>
      cases hhash : checkpoint.rawContentHash with
      | none =>
        simp only [hcached, hhash] at h
        cases h
      | some hash =>
        simp only [hcached, hhash] at h
        obtain ⟨payload, -, h⟩ := except_bind_eq_ok.mp h
        obtain ⟨evaluationTime, -, h⟩ := except_bind_eq_ok.mp h
        exact enterImport_expects h

theorem Inv.move (h : Inv digests backend s) (hdatasets : s'.db.datasets = s.db.datasets)
    (hcandles : s'.db.candles = s.db.candles) (hbatches : s'.batches = s.batches) (hresults : s'.results = s.results)
    (hcheckpoints : ∀ job c d, s'.checkpoints job = .saved c → c.publishedDataset = some d →
      s.checkpoints job = .saved c)
    (hphase : Expects digests s' s'.phase) : Inv digests backend s' := by
  refine ⟨?_, ?_, hphase, ?_, fun job c d hc hd => ?_⟩
  · rw [hdatasets, hcandles, hbatches]
    exact h.datasets
  · rw [hdatasets, hcandles]
    exact h.unpublished
  · rw [hresults, hdatasets, hcandles, hbatches]
    exact h.results
  · rw [hdatasets, hcandles, hbatches]
    exact h.checkpoints job c d (hcheckpoints job c d hc hd) hd

theorem Inv.setPhase (h : Inv digests backend s) {phase : Phase} (hphase : Expects digests s phase) :
    Inv digests backend { s with phase } :=
  h.move rfl rfl rfl rfl (fun _ _ _ hc _ => hc) (by cases phase <;> exact hphase)

theorem Inv.raise (h : Inv digests backend s) : Inv digests backend s.raise := h.setPhase trivial

theorem Inv.enter (h : Inv digests backend s) {entered : Except Exc Phase}
    (hphase : ∀ phase, entered = .ok phase → Expects digests s phase) : Inv digests backend (s.enter entered) := by
  cases entered with
  | error exc => exact h
  | ok phase => exact h.setPhase (hphase phase rfl)

theorem expects_finishing {call : Call} {record : RawArtifactRecord} {result : HistoricalImportResult}
    (h : s.db.datasets d = some result.manifest) : Expects digests s (finishing call record d result) := by
  unfold finishing
  cases call.job with
  | none => exact ⟨d, h⟩
  | some job => exact h

theorem expects_afterRegistering (call : Call) (record : RawArtifactRecord) :
    Expects digests s (afterRegistering call record) := by
  unfold afterRegistering
  cases call.job <;> trivial

theorem normalize_expects {call : Call} {record : RawArtifactRecord} {phase : Phase}
    (h : HistoricalImport.normalize digests json s.db call record = .ok phase) : Expects digests s phase := by
  unfold HistoricalImport.normalize at h
  obtain ⟨normalized, -, h⟩ := except_bind_eq_ok.mp h
  cases hcached : existingPublishedResult s.db
      (deriveDatasetId digests.seed (hashNormalizedCandles digests.rows normalized) "1.0" call.config.source)
      record.contentHash with
  | some cached =>
    simp only [hcached] at h
    cases h
    exact expects_finishing (existingPublishedResult_eq_some hcached)
  | none =>
    simp only [hcached] at h
    obtain ⟨manifest, hmanifest, h⟩ := except_bind_eq_ok.mp h
    cases h
    unfold buildManifest at hmanifest
    cases normalized with
    | nil => cases hmanifest
    | cons c cs =>
      simp only at hmanifest
      split_ifs at hmanifest
      cases hmanifest
      exact ⟨rfl, rfl, List.cons_ne_nil c cs⟩

theorem checkPublication_fresh {u : Unit} (h : checkPublication digests.seed db m backend = .ok u) :
    db.datasets (m.derivedId digests.seed) = none := by
  cases backend with
  | inMemory =>
    simp only [checkPublication] at h
    split_ifs at h with hdataset
    exact Option.not_isSome_iff_eq_none.mp hdataset
  | postgres =>
    simp only [checkPublication] at h
    split_ifs at h with _ hdataset
    exact Option.not_isSome_iff_eq_none.mp hdataset

theorem inv_publish (h : Inv digests backend s) {call : Call} {record : RawArtifactRecord} {normalized : List Candle}
    (hphase : s.phase = .publishing call record m normalized)
    (hstep : proceed digests json backend s s.phase = some s') : Inv digests backend s' := by
  have hexpects := h.phase
  rw [hphase] at hexpects hstep
  obtain ⟨hhash, hcount, hnonempty⟩ := hexpects
  unfold proceed at hstep
  cases hpublish : publishDataset digests.seed backend s.db m with
  | error error =>
    simp only [hpublish] at hstep
    cases hstep
    exact h.raise
  | ok published =>
    obtain ⟨_, hcheck, hpublished⟩ := except_bind_eq_ok.mp hpublish
    simp only [hpublish] at hstep
    cases hpublished
    cases hstep
    have hfresh := checkPublication_fresh hcheck
    have hne : ∀ d, (s.db.datasets d).isSome → d ≠ m.derivedId digests.seed := by
      rintro d hd rfl
      rw [hfresh] at hd
      cases hd
    refine ⟨fun d m' hd => ?_, fun d hd => ?_, ⟨?_, ?_, h.unpublished _ hfresh⟩, fun r hr => ?_,
      fun job c d hc hd => ?_⟩
    · by_cases hid : d = m.derivedId digests.seed
      · subst hid
        simp only [Function.update_self, Option.some.injEq] at hd ⊢
        subst hd
        exact ⟨rfl, hhash, hcount, hnonempty, .inl (h.unpublished _ hfresh)⟩
      · simp only [Function.update_of_ne hid] at hd ⊢
        exact h.datasets d m' hd
    · refine h.unpublished d ?_
      by_cases hid : d = m.derivedId digests.seed
      · rw [hid]
        exact hfresh
      · simpa only [Function.update_of_ne hid] using hd
    · exact Function.update_self ..
    · exact Function.update_self ..
    · obtain ⟨d, hd, hcomplete⟩ := h.results r hr
      have hid := hne d (by rw [hd]; rfl)
      refine ⟨d, ?_, ?_⟩
      · simpa only [Function.update_of_ne hid] using hd
      · simpa only [Function.update_of_ne hid] using hcomplete
    · obtain ⟨hdataset, hcomplete⟩ := h.checkpoints job c d hc hd
      have hid := hne d hdataset
      refine ⟨?_, ?_⟩
      · simpa only [Function.update_of_ne hid] using hdataset
      · simpa only [Function.update_of_ne hid] using hcomplete

theorem appendCandles_error {candles : List Candle} {error : CatalogError}
    (h : (appendCandles backend db d candles).outcome = .error error) :
    (appendCandles backend db d candles).db = db := by
  unfold appendCandles appendFrom at *
  split at h
  · rfl
  · rfl
  · split at h
    · rfl
    · cases h

theorem appendCandles_ok {candles : List Candle} {added : ℕ} (hdataset : db.datasets d = some m)
    (hempty : db.candles d = []) (h : (appendCandles backend db d candles).outcome = .ok added) :
    ∃ rows, StoredFrom backend candles rows ∧
      (appendCandles backend db d candles).db = { db with candles := Function.update db.candles d rows } := by
  have hlist : listCandles db d = [] := by
    rw [listCandles, hempty]
    rfl
  rw [appendCandles, appendFrom_published hdataset, hlist, hempty] at h ⊢
  cases hloop : appendLoop backend candles { known := [], rows := [] } with
  | mk a outcome =>
    rw [hloop] at h
    cases outcome with
    | error error => cases h
    | ok _ =>
      have hstart : Append.Indexed { known := [], rows := [] } := ⟨List.nodup_nil, fun _ hc => by cases hc⟩
      obtain ⟨hindexed, hkeys, firsts, stored, hsub, hforall, hrows⟩ := appendLoop_ok hstart hloop
      rw [List.nil_append] at hrows
      subst hrows
      exact ⟨a.rows, ⟨hindexed.nodup, hkeys, firsts, hsub, hforall⟩, rfl⟩

theorem inv_append (h : Inv digests backend s) {call : Call} {record : RawArtifactRecord} {normalized : List Candle}
    (hphase : s.phase = .appending call record m d normalized)
    (hstep : proceed digests json backend s s.phase = some s') : Inv digests backend s' := by
  have hexpects := h.phase
  rw [hphase] at hexpects hstep
  obtain ⟨hdataset, hbatch, hempty⟩ := hexpects
  simp only [proceed] at hstep
  cases happend : (appendCandles backend s.db d normalized).outcome with
  | error error =>
    simp only [happend, appendCandles_error happend] at hstep
    cases hstep
    exact h.raise
  | ok added =>
    obtain ⟨rows, hstored, hdb⟩ := appendCandles_ok hdataset hempty happend
    simp only [happend, hdb] at hstep
    cases hstep
    have hpublished := h.datasets d m hdataset
    have hne : ∀ d', Complete backend (s.batches d') (s.db.candles d') → d' ≠ d := by
      rintro d' hcomplete rfl
      exact hcomplete.appended hempty
    refine ⟨fun d' m' hd => ?_, fun d' hd => ?_, ?_, fun r hr => ?_, fun job c d' hc hd => ?_⟩
    · by_cases hid : d' = d
      · subst hid
        obtain rfl : m = m' := Option.some.inj (hdataset.symm.trans hd)
        simp only [Function.update_self]
        refine ⟨hpublished.datasetId, hpublished.contentHash, hpublished.rowCount, hpublished.nonempty, .inr ?_⟩
        rw [hbatch]
        exact hstored
      · simp only [Function.update_of_ne hid]
        exact h.datasets d' m' hd
    · have hid : d' ≠ d := by
        rintro rfl
        rw [hdataset] at hd
        cases hd
      simp only [Function.update_of_ne hid]
      exact h.unpublished d' hd
    · exact expects_finishing hdataset
    · obtain ⟨d', hd, hcomplete⟩ := h.results r hr
      refine ⟨d', hd, ?_⟩
      simpa only [Function.update_of_ne (hne d' hcomplete)] using hcomplete
    · obtain ⟨hdataset, hcomplete⟩ := h.checkpoints job c d' hc hd
      refine ⟨hdataset, ?_⟩
      simpa only [Function.update_of_ne (hne d' hcomplete)] using hcomplete

theorem save_checkpoint {job job' : String} {file : CheckpointFile} {c : ImportCheckpoint}
    (h : (s.save job file).checkpoints job' = .saved c) :
    job' = job ∧ file = .saved c ∨ s.checkpoints job' = .saved c := by
  change Function.update s.checkpoints job file job' = .saved c at h
  by_cases hjob : job' = job
  · subst hjob
    rw [Function.update_self] at h
    exact .inl ⟨rfl, h⟩
  · rw [Function.update_of_ne hjob] at h
    exact .inr h

theorem eq_of_given {d' : String} (h : given (some d) = some d') : d = d' :=
  Option.some.inj (Option.filter_eq_some_iff.mp h).1

theorem inv_die (h : Inv digests backend s) (written : Option ℕ) : Inv digests backend (s.die written) := by
  unfold State.die
  split
  · split
    · exact h.raise
    · exact h.raise.move rfl rfl rfl rfl (fun _ _ _ hc _ => hc) trivial
  · refine h.move rfl rfl rfl rfl (fun job c d hc _ => ?_) trivial
    rcases save_checkpoint hc with ⟨-, hfile⟩ | hc
    · cases hfile
    · exact hc
  · refine h.move rfl rfl rfl rfl (fun job c d hc _ => ?_) trivial
    rcases save_checkpoint hc with ⟨-, hfile⟩ | hc
    · cases hfile
    · exact hc
  · exact h.raise

theorem inv_proceed (h : Inv digests backend s) (hclean : Clean backend s .proceed)
    (hstep : proceed digests json backend s s.phase = some s') : Inv digests backend s' := by
  have hfinished := hclean rfl
  have hexpects := h.phase
  cases hphase : s.phase with
  | idle =>
    rw [hphase] at hstep
    cases hstep
  | storing call record =>
    rw [hphase] at hstep
    cases hstep
    unfold State.storeRaw
    split
    · split_ifs
      · exact h.raise
      · exact h.setPhase trivial
    · exact h.move rfl rfl rfl rfl (fun _ _ _ hc _ => hc) trivial
  | registering call record =>
    rw [hphase] at hstep
    simp only [proceed] at hstep
    cases hregister : registerRawArtifact s.db record with
    | error error =>
      simp only [hregister] at hstep
      cases hstep
      exact h.raise
    | ok db =>
      simp only [hregister] at hstep
      cases hstep
      have hsame : db.datasets = s.db.datasets ∧ db.candles = s.db.candles := by
        unfold registerRawArtifact at hregister
        split at hregister
        · split_ifs at hregister
          cases hregister
          exact ⟨rfl, rfl⟩
        · cases hregister
          exact ⟨rfl, rfl⟩
      exact h.move hsame.1 hsame.2 rfl rfl (fun _ _ _ hc _ => hc) (expects_afterRegistering call record)
  | noting call record job =>
    rw [hphase] at hstep
    cases hstep
    refine h.move rfl rfl rfl rfl (fun job c d hc hd => ?_) trivial
    rcases save_checkpoint hc with ⟨-, hfile⟩ | hc
    · cases hfile
      cases hd
    · exact hc
  | normalizing call record =>
    rw [hphase] at hstep
    simp only [proceed] at hstep
    cases hnormalize : HistoricalImport.normalize digests json s.db call record with
    | error error =>
      simp only [hnormalize] at hstep
      cases hstep
      exact h.raise
    | ok phase =>
      simp only [hnormalize] at hstep
      cases hstep
      exact h.setPhase (normalize_expects hnormalize)
  | publishing call record m normalized => exact inv_publish h hphase hstep
  | appending call record m d normalized => exact inv_append h hphase hstep
  | saving record job d result =>
    rw [hphase] at hstep hfinished hexpects
    cases hstep
    refine ⟨h.datasets, h.unpublished, ⟨d, hexpects⟩, h.results, fun job' c d' hc hd => ?_⟩
    rcases save_checkpoint hc with ⟨-, hfile⟩ | hc
    · cases hfile
      have hgiven : given (some d) = some d' := hd
      obtain rfl := eq_of_given hgiven
      exact ⟨Option.isSome_iff_exists.mpr ⟨_, hexpects⟩, hfinished d hgiven⟩
    · exact h.checkpoints job' c d' hc hd
  | returning result =>
    rw [hphase] at hstep hfinished hexpects
    cases hstep
    obtain ⟨d, hd⟩ := hexpects
    refine ⟨h.datasets, h.unpublished, trivial, fun r hr => ?_, h.checkpoints⟩
    rcases List.mem_append.mp hr with hr | hr
    · exact h.results r hr
    · rw [List.mem_singleton.mp hr]
      exact ⟨d, hd, hfinished d (h.datasets d _ hd).datasetId⟩

theorem inv_step (h : Inv digests backend s) (hclean : Clean backend s e)
    (hstep : step digests json backend s e = some s') : Inv digests backend s' := by
  cases e with
  | importPayload request fetchId now =>
    simp only [step, Option.ite_none_right_eq_some, Option.some.injEq] at hstep
    obtain ⟨-, rfl⟩ := hstep
    exact h.enter fun _ hphase => enterImport_expects hphase
  | renormalize hash config evaluationTime fetchId now =>
    simp only [step, Option.ite_none_right_eq_some, Option.some.injEq] at hstep
    obtain ⟨-, rfl⟩ := hstep
    exact h.enter fun _ hphase => enterRenormalize_expects hphase
  | resume config job evaluationTime fetchId now =>
    simp only [step, Option.ite_none_right_eq_some, Option.some.injEq] at hstep
    obtain ⟨-, rfl⟩ := hstep
    exact h.enter fun _ hphase => enterResume_expects hphase
  | proceed => exact inv_proceed h hclean hstep
  | crash written =>
    cases hstep
    exact inv_die h written

theorem not_integrity_of_defect (hsha : Function.Injective digests.rows) (h : Inv digests backend s)
    (hdefect : ¬Clean backend s e) (hstep : step digests json backend s e = some s') : ¬Integrity digests s' := by
  unfold Clean at hdefect
  push Not at hdefect
  obtain ⟨rfl, d, hfinished, hincomplete⟩ := hdefect
  have hexpects := h.phase
  intro hintegrity
  change proceed digests json backend s s.phase = some s' at hstep
  cases hphase : s.phase with
  | saving record job d' result =>
    rw [hphase] at hstep hfinished hexpects
    cases hstep
    obtain rfl := eq_of_given hfinished
    obtain ⟨m, hm, hholds⟩ := hintegrity.checkpoints job (published record job d') d' (Function.update_self ..) hfinished
    exact hincomplete (((h.datasets d' m hm).holds_iff hsha).mp hholds)
  | returning result =>
    rw [hphase] at hstep hfinished hexpects
    cases hstep
    obtain ⟨d', hd', hholds⟩ := hintegrity.results result (List.mem_append_right _ (List.mem_singleton_self _))
    obtain ⟨d'', hdataset⟩ := hexpects
    have hpublished := h.datasets d'' _ hdataset
    obtain rfl : d'' = d := Option.some.inj (hpublished.datasetId.symm.trans hfinished)
    obtain rfl : d'' = d' := Option.some.inj (hpublished.datasetId.symm.trans hd')
    exact hincomplete ((hpublished.holds_iff hsha).mp hholds)
  | idle | storing | registering | noting | normalizing | publishing | appending =>
    rw [hphase] at hfinished
    cases hfinished

end Steps

/-- In a run of import attempts that crash and resume at any points, every result returned and every checkpoint
saved as published is right exactly if no call finishes with a dataset that is incomplete: one left without its
candles between publication and append, one with a repeated key, or one whose numbers the columns round. -/
theorem import_integrity_iff (digests : Digests) (hsha : Function.Injective digests.rows)
    (json : Bytes → Except Exc (List SnapshotItem)) (backend : Backend) (events : List Event) :
    (∀ t e u, Taken (step digests json backend) {} events t e u → Clean backend t e) ↔
      ∀ t, Reached (step digests json backend) {} events t → Integrity digests t :=
  forall_taken_iff_forall_reached (show Inv digests backend {} from inv_start)
    (fun _ _ _ hinv hclean hstep => inv_step hinv hclean hstep) (fun _ hinv => hinv.integrity hsha)
    (fun _ _ _ hinv hdefect hstep => not_integrity_of_defect hsha hinv hdefect hstep)

end Integrity

section Samples

noncomputable def sampleDigests : Digests where
  rows := exists_injective_digest.choose
  bytes := fun _ => "raw"
  seed := fun _ => "dataset"

def sampleJson : Bytes → Except Exc (List SnapshotItem) := fun _ =>
  .ok [.candle ⟨"BTC", "1d", 1704067200000, 1704153599999, 100, 110, 90, 105, 1⟩]

def sampleCandle : Candle :=
  ⟨.BTC, .daily, 1704067200 * second, 1704153599 * second, 100, 110, 90, 105, 1, true⟩

def sampleRequest : ImportRequest where
  payload := []
  config := { source := "hyperliquid/mainnet", symbol := .BTC, timeframe := .daily, codeCommit := "abc1234" }
  evaluationTime := some (1704240000 * second)

def sampleCall (fetchId : String) : List Event :=
  [.importPayload sampleRequest fetchId 0, .proceed, .proceed, .proceed]

def crashedEvents : List Event := sampleCall "first" ++ [.proceed, .crash none] ++ sampleCall "second" ++ [.proceed]

def completeEvents : List Event := sampleCall "first" ++ [.proceed, .proceed, .proceed]

/-- A result says that one candle was published of which none is stored. -/
theorem crashed_import_returns_empty : ¬∀ (digests : Digests), Function.Injective digests.rows →
    ∀ (json : Bytes → Except Exc (List SnapshotItem)) (backend : Backend) (events : List Event) (t : State),
      Reached (step digests json backend) {} events t → Integrity digests t := by
  intro hall
  have hrun : (run (step sampleDigests sampleJson .postgres) {} crashedEvents).map (fun t =>
      (t.results.map fun r => (r.manifest.datasetId, r.manifest.rowCount), (t.db.candles "dataset").length)) =
      some ([(some "dataset", 1)], 0) := by
    decide +kernel
  obtain ⟨t, ht, heq⟩ := Option.map_eq_some_iff.mp hrun
  rw [Prod.mk.injEq] at heq
  obtain ⟨hresults, hempty⟩ := heq
  obtain ⟨r, hr, hr'⟩ := List.map_eq_singleton_iff.mp hresults
  obtain ⟨d, hd, -, hcount⟩ := (hall sampleDigests exists_injective_digest.choose_spec sampleJson .postgres
    crashedEvents t ⟨crashedEvents, List.prefix_rfl, ht⟩).results r (by rw [hr]; exact List.mem_singleton_self r)
  rw [Prod.mk.injEq] at hr'
  obtain rfl : "dataset" = d := Option.some.inj (hr'.1.symm.trans hd)
  rw [hr'.2, listCandles, sortCandles, List.length_insertionSort, hempty] at hcount
  cases hcount

theorem complete_import_integrity : ∃ t,
    run (step sampleDigests sampleJson .postgres) {} completeEvents = some t ∧ Integrity sampleDigests t := by
  have hends : (run (step sampleDigests sampleJson .postgres) {} completeEvents).isSome := by decide +kernel
  obtain ⟨final, hfinal⟩ := Option.isSome_iff_exists.mp hends
  refine ⟨final, hfinal, (import_integrity_iff sampleDigests exists_injective_digest.choose_spec sampleJson .postgres
    completeEvents).mp (fun t e u htaken _ d hd => ?_) final ⟨completeEvents, List.prefix_rfl, hfinal⟩⟩
  obtain ⟨n, hn, hrun⟩ := htaken.index
  have hfinished : ∀ n < 7, (run (step sampleDigests sampleJson .postgres) {} (completeEvents.take n)).bind
      (finished ·.phase) = if n = 6 then some "dataset" else none := by
    decide +kernel
  have hlast := hfinished n hn
  rw [hrun, Option.bind_some, hd] at hlast
  split_ifs at hlast with hsix
  subst hsix
  have hstored : (run (step sampleDigests sampleJson .postgres) {} (completeEvents.take 6)).map (fun t =>
      (t.batches "dataset", t.db.candles "dataset")) = some ([sampleCandle], [sampleCandle]) := by
    decide +kernel
  rw [hrun, Option.map_some, Option.some.injEq, Prod.mk.injEq] at hstored
  rw [Option.some.inj hlast, hstored.1, hstored.2]
  have hcolumns : Backend.postgres.columns sampleCandle = some sampleCandle := by
    decide +kernel
  refine ⟨List.nodup_singleton _, fun c hc => ?_, List.cons_ne_nil _ _⟩
  rw [List.mem_singleton.mp hc, Kept, hcolumns]
  rfl

end Samples

end TradingBot.Market.ImportIntegrity
