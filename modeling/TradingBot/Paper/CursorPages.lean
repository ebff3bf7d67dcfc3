import TradingBot.Paper.ReadonlyApi

namespace TradingBot.Paper.CursorPages

open Market.Models Market.Timeframes Market.CalendarFacts Market.Periods Paper.Models Library.Paging
open Paper.ReadonlyApi

section Timestamps

def wholeMilliseconds (t : Time) : Time := t / 1000 * 1000

theorem wholeMilliseconds_le (t : Time) : wholeMilliseconds t ≤ t := Int.ediv_mul_le t (by decide)

theorem digits_eq (n s : ℤ) : 86400000000 * n + s / 3600000000 * 3600000000 + s / 60000000 % 60 * 60000000 +
    s / 1000000 % 60 * 1000000 + s / 1000 % 1000 * 1000 = (86400000000 * n + s) / 1000 * 1000 := by omega

theorem toTime_formatUtc (t : Time) : (formatUtc t).toTime = wholeMilliseconds t := by
  have hdigits := digits_eq (dayNumber t) (timeOfDay t)
  have htime : 86400000000 * dayNumber t + timeOfDay t = t := Int.mul_ediv_add_emod t day
  rw [htime] at hdigits
  simp only [formatUtc, UtcText.toTime, dayNumber_date]
  exact hdigits

end Timestamps

section Listing

variable {ρ : Type} {listing : Listing ρ}

def Precedes (listing : Listing ρ) (r s : ρ) : Prop :=
  listing.timestamp s < listing.timestamp r ∨ listing.timestamp r = listing.timestamp s ∧ listing.id s < listing.id r

/-- The row `s` is listed after the cursor of the row `r`: before the millisecond of `r`, or, if `r` is of a whole
millisecond, at its time with a smaller identifier. -/
def Shown (listing : Listing ρ) (r s : ρ) : Prop :=
  listing.timestamp s < wholeMilliseconds (listing.timestamp r) ∨
  listing.timestamp s = wholeMilliseconds (listing.timestamp r) ∧ listing.id s < listing.id r

instance (listing : Listing ρ) : DecidableRel (Shown listing) := fun r s => inferInstanceAs (Decidable
  (listing.timestamp s < wholeMilliseconds (listing.timestamp r) ∨
    listing.timestamp s = wholeMilliseconds (listing.timestamp r) ∧ listing.id s < listing.id r))

theorem Precedes.trans {r s u : ρ} (h : Precedes listing r s) (h' : Precedes listing s u) : Precedes listing r u := by
  cases h with
  | inl hlt =>
    cases h' with
    | inl hlt' => exact .inl (hlt'.trans hlt)
    | inr heq => exact .inl (heq.1 ▸ hlt)
  | inr heq =>
    cases h' with
    | inl hlt' => exact .inl (heq.1 ▸ hlt')
    | inr heq' => exact .inr ⟨heq.1.trans heq'.1, heq'.2.trans heq.2⟩

theorem Precedes.irrefl (r : ρ) : ¬Precedes listing r r := by
  rintro (hlt | ⟨_, hlt⟩)
  · exact lt_irrefl _ hlt
  · exact lt_irrefl _ hlt

/-- A cursor shows rows that come after its own, and with a row all that come after that one. -/
theorem Shown.precedes {r s : ρ} (h : Shown listing r s) : Precedes listing r s := by
  have hle := wholeMilliseconds_le (listing.timestamp r)
  cases h with
  | inl hlt => exact .inl (hlt.trans_le hle)
  | inr heq =>
    cases hle.lt_or_eq with
    | inl hlt => exact .inl (heq.1 ▸ hlt)
    | inr hwhole => exact .inr ⟨(heq.1.trans hwhole).symm, heq.2⟩

theorem Shown.onward {r s u : ρ} (h : Shown listing r s) (hprecedes : Precedes listing s u) : Shown listing r u := by
  cases h with
  | inl hlt =>
    cases hprecedes with
    | inl hlt' => exact .inl (hlt'.trans hlt)
    | inr heq => exact .inl (heq.1 ▸ hlt)
  | inr heq =>
    cases hprecedes with
    | inl hlt' => exact .inl (heq.1 ▸ hlt')
    | inr heq' => exact .inr ⟨heq'.1.symm.trans heq.1, heq'.2.trans heq.2⟩

theorem ordered_perm (rows : List ρ) : (listing.ordered rows).Perm rows := List.perm_insertionSort _ rows

instance : Std.Total listing.OrderBy := ⟨fun a b => by
  obtain h | h | h := lt_trichotomy (listing.timestamp a) (listing.timestamp b)
  · exact .inr (.inl h)
  · exact (le_total (listing.id b) (listing.id a)).imp (fun hle => .inr ⟨h, hle⟩) fun hle => .inr ⟨h.symm, hle⟩
  · exact .inl (.inl h)⟩

instance : IsTrans ρ listing.OrderBy := ⟨by
  rintro a b c (h | ⟨h, hle⟩) (h' | ⟨h', hle'⟩)
  · exact .inl (h'.trans h)
  · exact .inl (h' ▸ h)
  · exact .inl (h ▸ h')
  · exact .inr ⟨h.trans h', hle'.trans hle⟩⟩

theorem pairwise_ordered {rows : List ρ} (hnodup : (rows.map listing.id).Nodup) :
    (listing.ordered rows).Pairwise (Precedes listing) := by
  have hsorted : (listing.ordered rows).Pairwise listing.OrderBy := List.pairwise_insertionSort _ rows
  have hperm : (listing.ordered rows).Perm rows := ordered_perm rows
  have hdistinct := (hperm.map listing.id).nodup_iff.mpr hnodup
  apply (hsorted.and (List.pairwise_map.mp hdistinct)).imp
  rintro r s ⟨hlt | ⟨heq, hle⟩, hne⟩
  · exact .inl hlt
  · exact .inr ⟨heq, lt_of_le_of_ne hle (Ne.symm hne)⟩

theorem eq_ordered {rows walked : List ρ} (hnodup : (rows.map listing.id).Nodup) (hperm : walked.Perm rows)
    (hpairwise : walked.Pairwise (Precedes listing)) : walked = listing.ordered rows := by
  apply (hperm.trans (ordered_perm rows).symm).eq_of_pairwise ?_ hpairwise (pairwise_ordered hnodup)
  intro r s _ _ hrs hsr
  exact absurd (hrs.trans hsr) (Precedes.irrefl r)

theorem decodeCursor_encodeCursor (hfields : listing.timestampField ≠ listing.idField) (r : ρ) :
    listing.decodeCursor (listing.encodeCursor r) = .ok (wholeMilliseconds (listing.timestamp r), listing.id r) := by
  have hne : (listing.idField == listing.timestampField) = false := beq_false_of_ne hfields.symm
  simp [Listing.decodeCursor, Listing.encodeCursor, List.lookup, hne, toTime_formatUtc]

theorem paged_respond (hfields : listing.timestampField ≠ listing.idField) {rows : List ρ}
    (hnodup : (rows.map listing.id).Nodup) {limit : ℕ} (hlimit : 1 ≤ limit ∧ limit ≤ maxPageLimit) :
    Paged (fun cursor => (listing.respond rows limit cursor).map (·.toPage)) listing.encodeCursor
      (fun r s => decide (Shown listing r s)) limit (listing.ordered rows) where
  limit_pos := hlimit.1
  first := by
    have hparse : parsePageLimit limit = .ok limit := by
      simp only [parsePageLimit, if_neg (not_lt.mpr hlimit.1), if_neg (not_lt.mpr hlimit.2)]
    simp only [Listing.respond, hparse]
    rfl
  next := by
    intro r _
    have hparse : parsePageLimit limit = .ok limit := by
      simp only [parsePageLimit, if_neg (not_lt.mpr hlimit.1), if_neg (not_lt.mpr hlimit.2)]
    simp only [Listing.respond, hparse, decodeCursor_encodeCursor hfields]
    rfl
  forward := by
    intro past r rest hrows s hs
    have hpairwise := pairwise_ordered hnodup
    rw [hrows] at hpairwise
    apply decide_eq_false
    intro hshown
    cases List.mem_append.mp hs with
    | inl hs =>
      have hbefore := (List.pairwise_append.mp hpairwise).2.2 s hs r List.mem_cons_self
      exact Precedes.irrefl r (hshown.precedes.trans hbefore)
    | inr hs =>
      rw [List.mem_singleton.mp hs] at hshown
      exact Precedes.irrefl r hshown.precedes
  onward := by
    intro past s rest hrows r hshown u hu
    have hpairwise := pairwise_ordered hnodup
    rw [hrows] at hpairwise
    have hbefore := List.rel_of_pairwise_cons (List.pairwise_append.mp hpairwise).2.1 hu
    exact decide_eq_true ((of_decide_eq_true hshown).onward hbefore)

end Listing

section Endpoints

variable (tables : Tables) (endpoint : Endpoint) (limit : ℕ)

def ReturnsEachOnce : Prop :=
  ∃ fuel walked, follow (fun cursor => (endpoint.respond tables limit cursor).map (·.toPage)) fuel none = some walked ∧
    walked.Perm (endpoint.rows tables) ∧ walked.Pairwise (Precedes endpoint.listing)

theorem timestampField_ne_idField : endpoint.listing.timestampField ≠ endpoint.listing.idField := by
  cases endpoint with
  | positions status openOnly exclusive => exact show "opened_at" ≠ "position_id" by decide
  | _ => decide

variable {tables endpoint limit}

theorem returnsEachOnce_iff_clear (hlimit : 1 ≤ limit ∧ limit ≤ maxPageLimit) :
    ReturnsEachOnce tables endpoint limit ↔
      Clear (fun r s => decide (Shown endpoint.listing r s)) limit (endpoint.listing.ordered (endpoint.rows tables)) := by
  have hnodup := endpoint.nodup_rows tables
  have hpaged := paged_respond (timestampField_ne_idField endpoint) hnodup hlimit
  rw [← hpaged.follow_eq_iff]
  simp only [ReturnsEachOnce, Endpoint.respond_eq]
  constructor
  · rintro ⟨fuel, walked, hfollow, hperm, hpairwise⟩
    rw [eq_ordered hnodup hperm hpairwise] at hfollow
    exact ⟨fuel, hfollow⟩
  · rintro ⟨fuel, hfollow⟩
    exact ⟨fuel, _, hfollow, ordered_perm _, pairwise_ordered hnodup⟩

/-- The pages of an endpoint are exact when each row that ends a full page is followed only by rows that its cursor
shows. -/
theorem cursor_pages_exact_iff (tables : Tables) (endpoint : Endpoint) (limit : ℕ)
    (hlimit : 1 ≤ limit ∧ limit ≤ maxPageLimit) :
    ReturnsEachOnce tables endpoint limit ↔
      ∀ past r rest, endpoint.listing.ordered (endpoint.rows tables) = past ++ r :: rest →
        limit ∣ past.length + 1 → ∀ s ∈ rest, Shown endpoint.listing r s := by
  rw [returnsEachOnce_iff_clear hlimit]
  simp only [Clear, decide_eq_true_eq]

def auditEvent (eventId : Id) (createdAt : Time) : AuditEvent :=
  { eventId, eventType := "INTENT_CREATED", aggregateType := "trade_intent", aggregateId := 1, payloadJson := "\x7b\x7d"
    createdAt }

def auditTables (auditEvents : List AuditEvent) (h : (auditEvents.map (·.eventId)).Nodup) : Tables where
  db := {}
  auditEvents
  auditEvents_key := h
  orders_key := List.nodup_nil
  positions_key := List.nodup_nil
  fills_key := List.nodup_nil
  stopHistory_key := List.nodup_nil
  schedulerRuns_key := List.nodup_nil
  snapshots_key := List.nodup_nil

def quietTables : Tables := auditTables [auditEvent 1 1704067200123456, auditEvent 2 1704067200124456] (by decide)

theorem quiet_tables_exact : ReturnsEachOnce quietTables .events 1 := by
  apply (cursor_pages_exact_iff quietTables .events 1 (by decide)).mpr
  have hordered : Endpoint.events.listing.ordered (Endpoint.events.rows quietTables) =
      [auditEvent 2 1704067200124456, auditEvent 1 1704067200123456] := by decide
  intro past r rest hrows _ s hs
  rw [hordered] at hrows
  cases past with
  | nil =>
    obtain ⟨rfl, rfl⟩ := List.cons.inj hrows
    rw [List.mem_singleton.mp hs]
    decide
  | cons first past =>
    have hlength := congrArg List.length hrows
    have hrest := List.length_pos_of_mem hs
    simp only [List.length_cons, List.length_nil, List.length_append] at hlength
    omega

def burstTables : Tables :=
  auditTables [auditEvent 1 1704067200123456, auditEvent 2 1704067200123456, auditEvent 3 1704067200123456] (by decide)

/-- With pages of two events the third one is never shown. -/
theorem burst_not_exact : ¬ReturnsEachOnce burstTables .events 2 := by
  intro h
  have hclear := (returnsEachOnce_iff_clear (by decide)).mp h [auditEvent 3 1704067200123456]
    (auditEvent 2 1704067200123456) [auditEvent 1 1704067200123456] (by decide) (by decide)
    (auditEvent 1 1704067200123456) List.mem_cons_self
  exact absurd hclear (by decide)

end Endpoints

end TradingBot.Paper.CursorPages
