import TradingBot.Library.Paging
import TradingBot.Market.Periods
import TradingBot.Paper.Models

namespace TradingBot.Paper.ReadonlyApi

open Market.Models Market.Timeframes Market.CalendarFacts Market.Periods Paper.Models Library.Paging

section Cursors

/-- The fields of a timestamp's text, which shows three digits of the second's fraction. -/
structure UtcText where
  year : ℤ
  month : ℤ
  dayOfMonth : ℤ
  hour : ℤ
  minute : ℤ
  second : ℤ
  millisecond : ℤ
deriving DecidableEq, Repr

def formatUtc (t : Time) : UtcText :=
  let date := civilDate (dayNumber t)
  { year := date.year
    month := date.month
    dayOfMonth := date.dayOfMonth
    hour := timeOfDay t / (3600 * second)
    minute := timeOfDay t / (60 * second) % 60
    second := timeOfDay t / second % 60
    millisecond := timeOfDay t / 1000 % 1000 }

/-- `datetime.fromisoformat`. -/
def UtcText.toTime (text : UtcText) : Time :=
  day * (firstOfMonth text.year text.month + text.dayOfMonth - 1) + text.hour * (3600 * Market.Models.second) +
    text.minute * (60 * Market.Models.second) + text.second * Market.Models.second + text.millisecond * 1000

inductive CursorValue
  | utc (text : UtcText)
  | uuid (id : Id)
  | other
deriving DecidableEq, Repr

/-- The text of a cursor, by what it decodes to. Base64 and JSON lose nothing. -/
inductive Cursor
  | object (fields : List (String × CursorValue))
  | undecodable
deriving DecidableEq, Repr

structure HTTPException where
  statusCode : ℕ
  detail : String
deriving DecidableEq, Repr

def invalidCursor : HTTPException := { statusCode := 400, detail := "invalid cursor" }

def maxPageLimit : ℕ := 100

def parsePageLimit (limit : ℕ) : Except HTTPException ℕ :=
  if limit < 1 then .error { statusCode := 400, detail := "limit must be >= 1" }
  else if maxPageLimit < limit then .error { statusCode := 400, detail := s!"limit must be <= {maxPageLimit}" }
  else .ok limit

end Cursors

section Listings

/-- How the rows of a table are listed: by a timestamp and an identifier, which the cursors carry under these names. -/
structure Listing (ρ : Type) where
  timestampField : String
  idField : String
  timestamp : ρ → Time
  id : ρ → Id

structure PaginatedResponse (ρ : Type) extends Page ρ Cursor where
  limit : ℕ

namespace Listing

variable {ρ : Type} (listing : Listing ρ)

/-- The latest first, and the greatest identifier first among equals. -/
def OrderBy (a b : ρ) : Prop :=
  listing.timestamp b < listing.timestamp a ∨ listing.timestamp a = listing.timestamp b ∧ listing.id b ≤ listing.id a

instance : DecidableRel listing.OrderBy := fun a b => inferInstanceAs (Decidable (listing.timestamp b <
  listing.timestamp a ∨ listing.timestamp a = listing.timestamp b ∧ listing.id b ≤ listing.id a))

def ordered (rows : List ρ) : List ρ := rows.insertionSort listing.OrderBy

def list (rows : List ρ) (limit : ℕ) (after : Option (Time × Id)) : List ρ :=
  match after with
  | none => (listing.ordered rows).take limit
  | some (time, id) => ((listing.ordered rows).filter fun s =>
    listing.timestamp s < time ∨ listing.timestamp s = time ∧ listing.id s < id).take limit

def encodeCursor (r : ρ) : Cursor :=
  .object [(listing.timestampField, .utc (formatUtc (listing.timestamp r))), (listing.idField, .uuid (listing.id r))]

def decodeCursor : Cursor → Except HTTPException (Time × Id)
  | .undecodable => .error invalidCursor
  | .object fields =>
    match fields.lookup listing.timestampField, fields.lookup listing.idField with
    | some (.utc text), some (.uuid id) => .ok (text.toTime, id)
    | _, _ => .error invalidCursor

def respond (rows : List ρ) (limit : ℕ) (cursor : Option Cursor) : Except HTTPException (PaginatedResponse ρ) := do
  let pageLimit ← parsePageLimit limit
  let after ← match cursor with
    | none => .ok none
    | some cursor => (listing.decodeCursor cursor).map some
  let fetched := listing.list rows (pageLimit + 1) after
  pure { pageOf listing.encodeCursor pageLimit fetched with limit := pageLimit }

end Listing

end Listings

section Endpoints

structure AuditEvent where
  eventId : Id
  eventType : String
  aggregateType : String
  aggregateId : Id
  payloadJson : String
  cycleId : Option Id := none
  createdAt : Time
deriving DecidableEq, Repr

/-- The tables that the endpoints read, each under its primary key. -/
structure Tables where
  db : Db
  auditEvents : List AuditEvent
  auditEvents_key : (auditEvents.map (·.eventId)).Nodup
  orders_key : (db.orders.map (·.paperOrderId)).Nodup
  positions_key : (db.positions.map (·.positionId)).Nodup
  fills_key : (db.fills.map (·.fillId)).Nodup
  stopHistory_key : (db.stopHistory.map (·.stopEventId)).Nodup
  schedulerRuns_key : (db.schedulerRuns.map (·.runId)).Nodup
  snapshots_key : (db.snapshots.map (·.snapshotId)).Nodup

def auditEventListing : Listing AuditEvent := ⟨"created_at", "event_id", (·.createdAt), (·.eventId)⟩

def orderListing : Listing PaperOrder := ⟨"created_at", "paper_order_id", (·.createdAt), (·.paperOrderId)⟩

def positionListing : Listing PaperPosition := ⟨"opened_at", "position_id", (·.openedAt), (·.positionId)⟩

def fillListing : Listing PaperFill := ⟨"fill_time", "fill_id", (·.fillTime), (·.fillId)⟩

def stopEventListing : Listing PositionStopEvent :=
  ⟨"evaluation_time", "stop_event_id", (·.evaluationTime), (·.stopEventId)⟩

def schedulerRunListing : Listing SchedulerRun := ⟨"scheduled_for", "run_id", (·.scheduledFor), (·.runId)⟩

def snapshotListing : Listing PortfolioSnapshot :=
  ⟨"evaluation_time", "snapshot_id", (·.evaluationTime), (·.snapshotId)⟩

variable (tables : Tables) (limit : ℕ) (cursor : Option Cursor)

def apiEvents : Except HTTPException (PaginatedResponse AuditEvent) :=
  auditEventListing.respond tables.auditEvents limit cursor

def apiOrders : Except HTTPException (PaginatedResponse PaperOrder) :=
  orderListing.respond tables.db.orders limit cursor

def positionRows (status : Option PaperPositionStatus) (openOnly : Bool) : List PaperPosition :=
  if openOnly then tables.db.positions.filter fun p => p.status = .open_ ∨ p.status = .closing
  else match status with
    | some status => tables.db.positions.filter fun p => p.status = status
    | none => tables.db.positions

def apiPositions (status : Option PaperPositionStatus) (openOnly : Bool) :
    Except HTTPException (PaginatedResponse PaperPosition) :=
  if openOnly ∧ status.isSome then
    .error { statusCode := 400, detail := "open_only and status are mutually exclusive" }
  else positionListing.respond (positionRows tables status openOnly) limit cursor

def apiFills : Except HTTPException (PaginatedResponse PaperFill) :=
  fillListing.respond tables.db.fills limit cursor

def apiStops : Except HTTPException (PaginatedResponse PositionStopEvent) :=
  stopEventListing.respond tables.db.stopHistory limit cursor

def apiSchedulerRuns : Except HTTPException (PaginatedResponse SchedulerRun) :=
  schedulerRunListing.respond tables.db.schedulerRuns limit cursor

def apiEquity : Except HTTPException (PaginatedResponse PortfolioSnapshot) :=
  snapshotListing.respond tables.db.snapshots limit cursor

/-- The endpoints that list a table, the positions with a filter that is accepted. -/
inductive Endpoint
  | events | orders | fills | stops | schedulerRuns | equity
  | positions (status : Option PaperPositionStatus) (openOnly : Bool) (exclusive : ¬(openOnly ∧ status.isSome))

namespace Endpoint

abbrev Row : Endpoint → Type
  | .events => AuditEvent
  | .orders => PaperOrder
  | .fills => PaperFill
  | .stops => PositionStopEvent
  | .schedulerRuns => SchedulerRun
  | .equity => PortfolioSnapshot
  | .positions .. => PaperPosition

def listing : (endpoint : Endpoint) → Listing endpoint.Row
  | .events => auditEventListing
  | .orders => orderListing
  | .fills => fillListing
  | .stops => stopEventListing
  | .schedulerRuns => schedulerRunListing
  | .equity => snapshotListing
  | .positions .. => positionListing

def rows : (endpoint : Endpoint) → List endpoint.Row
  | .events => tables.auditEvents
  | .orders => tables.db.orders
  | .fills => tables.db.fills
  | .stops => tables.db.stopHistory
  | .schedulerRuns => tables.db.schedulerRuns
  | .equity => tables.db.snapshots
  | .positions status openOnly _ => positionRows tables status openOnly

def respond : (endpoint : Endpoint) → Except HTTPException (PaginatedResponse endpoint.Row)
  | .events => apiEvents tables limit cursor
  | .orders => apiOrders tables limit cursor
  | .fills => apiFills tables limit cursor
  | .stops => apiStops tables limit cursor
  | .schedulerRuns => apiSchedulerRuns tables limit cursor
  | .equity => apiEquity tables limit cursor
  | .positions status openOnly _ => apiPositions tables limit cursor status openOnly

theorem respond_eq (endpoint : Endpoint) :
    endpoint.respond tables limit cursor = endpoint.listing.respond (endpoint.rows tables) limit cursor := by
  cases endpoint with
  | positions status openOnly exclusive => exact if_neg exclusive
  | _ => rfl

theorem nodup_rows (endpoint : Endpoint) : ((endpoint.rows tables).map endpoint.listing.id).Nodup := by
  cases endpoint with
  | events => exact tables.auditEvents_key
  | orders => exact tables.orders_key
  | fills => exact tables.fills_key
  | stops => exact tables.stopHistory_key
  | schedulerRuns => exact tables.schedulerRuns_key
  | equity => exact tables.snapshots_key
  | positions status openOnly exclusive =>
    have hsublist : (positionRows tables status openOnly).Sublist tables.db.positions := by
      cases openOnly with
      | true => exact List.filter_sublist
      | false =>
        cases status with
        | none => exact List.Sublist.refl _
        | some status => exact List.filter_sublist
    exact tables.positions_key.sublist (hsublist.map _)

end Endpoint

end Endpoints

end TradingBot.Paper.ReadonlyApi
