import TradingBot.Library.Grouping
import TradingBot.Paper.Stops

namespace TradingBot.Paper.PositionTable

open Market.Models Exceptions Library Library.Transaction Paper.Models Paper.Repository Paper.Stops

def openOf (db : Db) (symbol : Symbol) : List PaperPosition :=
  db.positions.filter fun p => decide (p.symbol = symbol) && isOpen p

/-- The primary key of the table and its partial unique index on open symbols. -/
structure PositionKeys (db : Db) : Prop where
  ids : (db.positions.map (·.positionId)).Nodup
  openUnique : ∀ symbol, (openOf db symbol).length ≤ 1

theorem mem_openOf {db : Db} {symbol : Symbol} {p : PaperPosition} :
    p ∈ openOf db symbol ↔ p ∈ db.positions ∧ p.symbol = symbol ∧ isOpen p := by
  simp [openOf]

theorem openOf_eq_of_mem {db : Db} {symbol : Symbol} {p : PaperPosition} (hkeys : PositionKeys db)
    (hp : p ∈ openOf db symbol) : openOf db symbol = [p] := by
  have hlen := hkeys.openUnique symbol
  match h : openOf db symbol with
  | [] => rw [h] at hp; cases hp
  | [q] => rw [h] at hp; rw [List.mem_singleton.mp hp]
  | _ :: _ :: _ => simp [h] at hlen

theorem getOpenPositionForSymbol_run {s : Session Db} (hkeys : PositionKeys s.db) (symbol : Symbol) :
    getOpenPositionForSymbol symbol s = (.ok (openOf s.db symbol).head?, s) := by
  have hlen := hkeys.openUnique symbol
  have hread : getOpenPositionForSymbol symbol s = scalarOneOrNone (openOf s.db symbol) s := rfl
  rw [hread]
  match h : openOf s.db symbol with
  | [] => rfl
  | [_] => rfl
  | _ :: _ :: _ => simp [h] at hlen

theorem getOpenPositionForSymbol_of_mem {s : Session Db} {symbol : Symbol} {p : PaperPosition}
    (hkeys : PositionKeys s.db) (hp : p ∈ openOf s.db symbol) :
    getOpenPositionForSymbol symbol s = (.ok (some p), s) := by
  rw [getOpenPositionForSymbol_run hkeys, openOf_eq_of_mem hkeys hp]
  rfl

theorem eq_of_positionId_eq {db : Db} (hkeys : PositionKeys db) {p q : PaperPosition}
    (hp : p ∈ db.positions) (hq : q ∈ db.positions) (h : p.positionId = q.positionId) : p = q :=
  List.inj_on_of_nodup_map hkeys.ids hp hq h

theorem find?_positionId {db : Db} (hkeys : PositionKeys db) {p : PaperPosition}
    (hp : p ∈ db.positions) : db.positions.find? (·.positionId = p.positionId) = some p :=
  Keyed.find?_key hkeys.ids hp

theorem getPosition_run {s : Session Db} (hkeys : PositionKeys s.db) {p : PaperPosition}
    (hp : p ∈ s.db.positions) : getPosition p.positionId s = (.ok (some p), s) := by
  show (Except.ok (s.db.positions.find? _), s) = _
  rw [find?_positionId hkeys hp]

theorem require_eq_ok {condition : Bool} {e : Exc} {s s' : Session Db} {u : Unit} :
    require condition e s = (.ok u, s') ↔ condition ∧ s = s' := by
  cases condition <;> simp [require, raise, pure]

theorem require_run {condition : Bool} (h : condition) (e : Exc) (s : Session Db) :
    require condition e s = (.ok (), s) := require_eq_ok.mpr ⟨h, rfl⟩

theorem ofExcept_ok_bind {α β : Type} (a : α) (f : α → Query β) (s : Session Db) :
    (ofExcept (.ok a) >>= f) s = f a s := rfl

theorem newId_bind {α : Type} (f : Id → Query α) (db : Db) (faults : List Bool) :
    (newId >>= f) ⟨db, faults⟩ = f db.nextId ⟨{ db with nextId := db.nextId + 1 }, faults⟩ := rfl

theorem insertOrGetStopEvent_run {db : Db} {row : PositionStopEvent}
    (hnew : db.stopHistory.find? (sameStopEvent row) = none) (hle : row.previousStop ≤ row.newStop) :
    insertOrGetStopEvent row ⟨db, []⟩ =
      (.ok true, ⟨{ db with stopHistory := db.stopHistory ++ [row] }, []⟩) := by
  unfold insertOrGetStopEvent
  rw [read_bind]
  simp only [hnew]
  rw [bind_of_ok (require_run (decide_eq_true hle) _ _)]
  rfl

/-- An update of one row by its key. -/
def modifyPosition (positionId : Id) (f : PaperPosition → PaperPosition) (db : Db) : Db :=
  { db with positions := db.positions.map fun p => if p.positionId = positionId then f p else p }

section Modify

variable {db : Db} {positionId : Id} {f : PaperPosition → PaperPosition}

theorem modifyPosition_ids (hf : ∀ p, (f p).positionId = p.positionId) :
    (modifyPosition positionId f db).positions.map (·.positionId) =
      db.positions.map (·.positionId) := by
  simp only [modifyPosition, List.map_map]
  refine List.map_congr_left fun p _ => ?_
  by_cases h : p.positionId = positionId <;> simp [h, hf]

theorem modifyPosition_openOf (hsym : ∀ p, (f p).symbol = p.symbol)
    (hstatus : ∀ p, (f p).status = p.status) (symbol : Symbol) :
    openOf (modifyPosition positionId f db) symbol =
      (openOf db symbol).map fun p => if p.positionId = positionId then f p else p := by
  simp only [openOf, modifyPosition, List.filter_map]
  congr 1
  refine List.filter_congr fun p _ => ?_
  by_cases h : p.positionId = positionId <;> simp [h, hsym, hstatus, isOpen]

theorem mem_openOf_modifyPosition {p : PaperPosition} {symbol : Symbol} (hp : p ∈ openOf db symbol)
    (hsym : ∀ p, (f p).symbol = p.symbol) (hstatus : ∀ p, (f p).status = p.status) :
    f p ∈ openOf (modifyPosition p.positionId f db) symbol := by
  rw [modifyPosition_openOf hsym hstatus]
  exact List.mem_map.mpr ⟨p, hp, if_pos rfl⟩

theorem modifyPosition_keys (hkeys : PositionKeys db) (hid : ∀ p, (f p).positionId = p.positionId)
    (hsym : ∀ p, (f p).symbol = p.symbol) (hstatus : ∀ p, (f p).status = p.status) :
    PositionKeys (modifyPosition positionId f db) := by
  refine ⟨?_, fun symbol => ?_⟩
  · rw [modifyPosition_ids hid]
    exact hkeys.ids
  · rw [modifyPosition_openOf hsym hstatus, List.length_map]
    exact hkeys.openUnique symbol

end Modify

section Snapshot

/-- Nothing but the snapshots and the supply of identifiers differs. -/
def SnapshotOnly (db db' : Db) : Prop :=
  ∃ snapshots nextId, db' = { db with snapshots := snapshots, nextId := nextId }

theorem insertOrGetPortfolioSnapshot_ok {s s' : Session Db} {row : PortfolioSnapshot}
    {r : PortfolioSnapshot × Bool} (h : insertOrGetPortfolioSnapshot row s = (.ok r, s')) :
    SnapshotOnly s.db s'.db := by
  unfold insertOrGetPortfolioSnapshot at h
  rw [read_bind] at h
  rcases hfind : s.db.snapshots.find? (sameSnapshot row) with _ | existing <;> simp only [hfind] at h
  · obtain ⟨_, t, hwrite, hpure⟩ := bind_eq_ok.mp h
    have hdb := write_ok_db hwrite
    cases hpure
    exact ⟨_, s.db.nextId, hdb⟩
  · obtain ⟨_, t, hflush, hpure⟩ := bind_eq_ok.mp h
    have hdb := flush_ok_db hflush
    cases hpure
    exact ⟨s.db.snapshots, s.db.nextId, hdb⟩

theorem insertOrGetPortfolioSnapshot_run (db : Db) (row : PortfolioSnapshot) :
    ∃ r db', insertOrGetPortfolioSnapshot row ⟨db, []⟩ = (.ok r, ⟨db', []⟩) := by
  unfold insertOrGetPortfolioSnapshot
  rw [read_bind]
  rcases db.snapshots.find? (sameSnapshot row) with _ | existing
  · exact ⟨_, _, rfl⟩
  · exact ⟨_, _, rfl⟩

theorem captureSnapshot_ok {s s' : Session Db} {time : Time} {event : String}
    {r : PortfolioSnapshot × Bool} (h : captureSnapshot time event s = (.ok r, s')) :
    SnapshotOnly s.db s'.db := by
  unfold captureSnapshot getWallet getOpenPositions at h
  rw [read_bind] at h
  rcases hw : s.db.wallet with _ | wallet <;> simp only [hw] at h
  · cases h
  · rw [read_bind] at h
    obtain ⟨_, t, hid, hscope⟩ := bind_eq_ok.mp h
    cases hid
    obtain ⟨snapshots, n, hdb⟩ := insertOrGetPortfolioSnapshot_ok (scope_eq_ok.mp hscope)
    exact ⟨snapshots, n, hdb⟩

theorem captureSnapshot_keeps {inv : Db → Prop}
    (hinv : ∀ db db', SnapshotOnly db db' → inv db → inv db') (time : Time) (event : String) :
    Keeps inv (captureSnapshot time event) := by
  refine keeps_bind (keeps_read _) fun wallet => ?_
  cases wallet with
  | none => exact keeps_raise _
  | some wallet =>
    refine keeps_bind (keeps_read _) fun _ => keeps_bind (fun s hs => ?_) fun _ => ?_
    · exact hinv _ _ ⟨s.db.snapshots, s.db.nextId + 1, rfl⟩ hs
    · exact keeps_scope fun u r u' hu hrun => hinv _ _ (insertOrGetPortfolioSnapshot_ok hrun) hu

theorem captureSnapshot_run (db : Db) (hwallet : db.wallet.isSome) (time : Time) (event : String) :
    ∃ r db', captureSnapshot time event ⟨db, []⟩ = (.ok r, ⟨db', []⟩) := by
  obtain ⟨wallet, hw⟩ := Option.isSome_iff_exists.mp hwallet
  unfold captureSnapshot getWallet getOpenPositions
  simp only [read_bind, hw]
  obtain ⟨r, db', hrun⟩ := insertOrGetPortfolioSnapshot_run { db with nextId := db.nextId + 1 } _
  exact ⟨r, db', scope_of_ok hrun⟩

end Snapshot

end TradingBot.Paper.PositionTable
