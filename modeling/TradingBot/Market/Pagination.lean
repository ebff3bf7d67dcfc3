import TradingBot.Market.RuntimeFacts

namespace TradingBot.Market.Pagination

open Market.Models Market.Provider Market.Runtime Market.RuntimeFacts MarketDataRuntime Exceptions
open Library.Outcome

section Client

structure SnapshotRequest where
  coin : String
  interval : String
  startTime : ℤ
  endTime : ℤ
deriving DecidableEq, Repr

/-- An object that lacks a field or has one of another type stands with what the parser raises for it. -/
inductive SnapshotItem
  | candle (payload : CandlePayload)
  | malformed (exc : Exc)
  | notAnObject

inductive SnapshotPayload
  | items (items : List SnapshotItem)
  | notAList

structure SnapshotPage where
  payload : SnapshotPayload
  raw : List UInt8

/-- `post_info_with_raw`: what comes of each request, the pages counted from zero. -/
abbrev Client := ℕ → SnapshotRequest → Except Exc SnapshotPage

structure SnapshotConfig where
  maxPaginationPages : ℕ := 20
  maxCandlesPerSnapshot : ℕ := 5000
  pages_pos : 1 ≤ maxPaginationPages := by decide
  candles_pos : 1 ≤ maxCandlesPerSnapshot := by decide

/-- The arguments of a call of `fetch_candles_with_raw_pages`. -/
structure FetchCall where
  symbol : Symbol
  timeframe : Timeframe
  startTime : Time
  endTime : Time
  evaluationTime : Time

namespace FetchCall

def coin (call : FetchCall) : String := coinForSymbol call.symbol

def interval (call : FetchCall) : String := intervalForTimeframe call.timeframe

def startMs (call : FetchCall) : ℤ := toEpochMs call.startTime

def endMs (call : FetchCall) : ℤ := toEpochMs call.endTime

def request (call : FetchCall) (cursor : ℤ) : SnapshotRequest :=
  { coin := call.coin, interval := call.interval, startTime := cursor, endTime := call.endMs }

def paginationIncomplete (call : FetchCall) (config : SnapshotConfig) (cursor : ℤ) : Exc :=
  .runtimeError s!"pagination incomplete for {call.coin}/{call.interval}: cursor={cursor}, end_ms={call.endMs}, pages={config.maxPaginationPages}"

def paginationStagnant (call : FetchCall) (lastMs : ℤ) : Exc :=
  .runtimeError s!"pagination stagnant at timestamp {lastMs} for {call.coin}/{call.interval}"

end FetchCall

end Client

section Pages

def candleKey (raw : RawCandle) : ℤ × ℤ := (toEpochMs raw.openTime, toEpochMs raw.closeTime)

def sortCandles (raws : List RawCandle) : List RawCandle :=
  raws.insertionSort fun a b => a.openTime ≤ b.openTime

structure PageLoop where
  allCandles : List RawCandle := []
  rawPages : List (List UInt8) := []
  seenKeys : Finset (ℤ × ℤ) := ∅
  cursor : ℤ
  lastProgressMs : Option ℤ := none
  stagnantPages : ℕ := 0

/-- After a page the loop goes on, or `pagination_complete` is set and it breaks. -/
inductive Progress
  | next (loop : PageLoop)
  | complete (loop : PageLoop)

/-- What a call has come to. `requests` is not in the source: the requests that were made. -/
structure Fetch where
  requests : List SnapshotRequest
  outcome : Except Exc (List RawCandle × List (List UInt8))

def Fetch.after (request : SnapshotRequest) (fetch : Fetch) : Fetch :=
  { fetch with requests := request :: fetch.requests }

def parseItem (call : FetchCall) : SnapshotItem → Except Exc RawCandle
  | .candle payload => parseSnapshotItem call.symbol call.timeframe call.endTime call.evaluationTime payload
  | .malformed exc => .error exc
  | .notAnObject => .error (.runtimeError "candleSnapshot item must be an object")

/-- The candles of a page that are wanted and new, and the keys seen after them. -/
def pageCandles (call : FetchCall) : List SnapshotItem → Finset (ℤ × ℤ) →
    Except Exc (List RawCandle × Finset (ℤ × ℤ))
  | [], seen => .ok ([], seen)
  | item :: items, seen => do
    let raw ← parseItem call item
    if toEpochMs raw.openTime < call.startMs then pageCandles call items seen
    else if candleKey raw ∈ seen then pageCandles call items seen
    else do
      let (raws, seen) ← pageCandles call items (insert (candleKey raw) seen)
      pure (raw :: raws, seen)

def advance (call : FetchCall) (config : SnapshotConfig) (loop : PageLoop) (count : ℕ) (last : RawCandle) :
    Except Exc Progress :=
  let lastMs := toEpochMs last.openTime
  let stagnantPages := if loop.lastProgressMs.any (lastMs ≤ ·) then loop.stagnantPages + 1 else 0
  if 2 ≤ stagnantPages then .error (call.paginationStagnant lastMs)
  else
    let loop := { loop with stagnantPages, lastProgressMs := some lastMs }
    if call.endMs ≤ lastMs ∨ count < config.maxCandlesPerSnapshot then .ok (.complete loop)
    else
      let loop := { loop with cursor := toEpochMs last.closeTime + 1 }
      if call.endMs < loop.cursor then .ok (.complete loop) else .ok (.next loop)

def processPage (call : FetchCall) (config : SnapshotConfig) (loop : PageLoop) (page : SnapshotPage) :
    Except Exc Progress :=
  let loop := { loop with rawPages := loop.rawPages ++ [page.raw] }
  match page.payload with
  | .notAList => .error (.runtimeError "candleSnapshot response must be a list")
  | .items [] => .ok (.complete loop)
  | .items items => do
    let (found, seenKeys) ← pageCandles call items loop.seenKeys
    let raws := sortCandles found
    match raws.getLast? with
    | none => .ok (.complete { loop with seenKeys })
    | some last => advance call config { loop with seenKeys, allCandles := loop.allCandles ++ raws } items.length last

/-- The rest of the loop, with so many pages to go. -/
def fetchPages (client : Client) (config : SnapshotConfig) (call : FetchCall) : ℕ → PageLoop → Fetch
  | 0, loop => { requests := [], outcome := .error (call.paginationIncomplete config loop.cursor) }
  | left + 1, loop =>
    let request := call.request loop.cursor
    match client (config.maxPaginationPages - (left + 1)) request >>= processPage call config loop with
    | .error exc => { requests := [request], outcome := .error exc }
    | .ok (.complete loop) => { requests := [request], outcome := .ok (sortCandles loop.allCandles, loop.rawPages) }
    | .ok (.next loop) => (fetchPages client config call left loop).after request

def fetchCandlesWithRawPages (client : Client) (config : SnapshotConfig) (call : FetchCall) : Fetch :=
  if call.endTime < call.startTime then
    { requests := [], outcome := .error (.valueError "start_time must be <= end_time") }
  else fetchPages client config call config.maxPaginationPages { cursor := call.startMs }

end Pages

section Parsing

variable {call : FetchCall}

theorem parseCandle_times {item : CandlePayload} {coin interval : String} {now : Time} {raw : RawCandle}
    (h : parseCandle item coin interval now = .ok raw) :
    raw.openTime = item.t * 1000 ∧ raw.closeTime = item.T * 1000 ∧ item.t < item.T := by
  simp only [parseCandle] at h
  split at h
  · cases h
  · split_ifs at h
    obtain ⟨resolved, _, h⟩ := except_bind_eq_ok.mp h
    split_ifs at h
    obtain ⟨openTime, hopen, h⟩ := except_bind_eq_ok.mp h
    obtain ⟨closeTime, hclose, h⟩ := except_bind_eq_ok.mp h
    simp only [epochMsToUtc] at hopen hclose
    split_ifs at h hopen hclose with horder
    cases hopen
    cases hclose
    cases h
    refine ⟨rfl, rfl, ?_⟩
    have hlt : item.t * 1000 < item.T * 1000 := not_le.mp horder
    omega

theorem toEpochMs_mul (n : ℤ) : toEpochMs (n * 1000) = n := Int.mul_ediv_cancel n (by decide)

theorem parseItem_ok {item : SnapshotItem} {raw : RawCandle} (h : parseItem call item = .ok raw) :
    1000 * toEpochMs raw.openTime = raw.openTime ∧ toEpochMs raw.openTime ≤ call.endMs := by
  cases item with
  | candle payload =>
    obtain ⟨parsed, hparsed, h⟩ := except_bind_eq_ok.mp h
    split_ifs at h with hlate
    cases h
    refine ⟨?_, not_lt.mp hlate⟩
    rw [(parseCandle_times hparsed).1, toEpochMs_mul, mul_comm]
  | malformed exc => cases h
  | notAnObject => cases h

end Parsing

section AnyPages

variable {client : Client} {config : SnapshotConfig} {call : FetchCall} {loop : PageLoop}

/-- A candle that opens on a millisecond of the range asked for. -/
structure Wanted (call : FetchCall) (raw : RawCandle) : Prop where
  openMs : 1000 * toEpochMs raw.openTime = raw.openTime
  notBefore : call.startMs ≤ toEpochMs raw.openTime
  notAfter : toEpochMs raw.openTime ≤ call.endMs

/-- What has been collected: wanted candles, their keys seen and all different. -/
structure Collected (call : FetchCall) (raws : List RawCandle) (seen : Finset (ℤ × ℤ)) : Prop where
  wanted : ∀ raw ∈ raws, Wanted call raw
  seen : ∀ raw ∈ raws, candleKey raw ∈ seen
  distinct : (raws.map candleKey).Nodup

theorem Collected.perm {raws raws' : List RawCandle} {seen : Finset (ℤ × ℤ)} (h : Collected call raws seen)
    (hperm : raws'.Perm raws) : Collected call raws' seen where
  wanted raw hraw := h.wanted raw (hperm.mem_iff.mp hraw)
  seen raw hraw := h.seen raw (hperm.mem_iff.mp hraw)
  distinct := (hperm.map candleKey).nodup_iff.mpr h.distinct

theorem sortCandles_perm (raws : List RawCandle) : (sortCandles raws).Perm raws := List.perm_insertionSort _ raws

theorem pageCandles_collected {items : List SnapshotItem} {seen : Finset (ℤ × ℤ)}
    {found : List RawCandle × Finset (ℤ × ℤ)} (h : pageCandles call items seen = .ok found) :
    Collected call found.1 found.2 ∧ seen ⊆ found.2 ∧ ∀ raw ∈ found.1, candleKey raw ∉ seen := by
  induction items generalizing seen found with
  | nil =>
    cases h
    exact ⟨⟨by simp, by simp, by simp⟩, subset_rfl, by simp⟩
  | cons item items ih =>
    obtain ⟨raw, hparsed, h⟩ := except_bind_eq_ok.mp h
    obtain ⟨hopen, hlate⟩ := parseItem_ok hparsed
    split_ifs at h with hearly hseen
    · exact ih h
    · exact ih h
    · obtain ⟨⟨raws, seen'⟩, hrest, h⟩ := except_bind_eq_ok.mp h
      cases h
      obtain ⟨hcollected, hsubset, hnew⟩ := ih hrest
      have hkey : candleKey raw ∈ seen' := hsubset (Finset.mem_insert_self _ _)
      have hfresh : candleKey raw ∉ raws.map candleKey := by
        intro hmem
        obtain ⟨raw', hraw', heq⟩ := List.mem_map.mp hmem
        apply hnew raw' hraw'
        rw [heq]
        exact Finset.mem_insert_self _ _
      refine ⟨⟨?_, ?_, List.nodup_cons.mpr ⟨hfresh, hcollected.distinct⟩⟩, ?_, ?_⟩
      · exact List.forall_mem_cons.mpr ⟨⟨hopen, not_lt.mp hearly, hlate⟩, hcollected.wanted⟩
      · exact List.forall_mem_cons.mpr ⟨hkey, hcollected.seen⟩
      · exact (Finset.subset_insert _ _).trans hsubset
      · intro raw' hraw' hmem
        cases List.mem_cons.mp hraw' with
        | inl heq => exact hseen (heq ▸ hmem)
        | inr hraw' => exact hnew raw' hraw' (Finset.mem_insert_of_mem hmem)

def Sound (call : FetchCall) (loop : PageLoop) : Prop := Collected call loop.allCandles loop.seenKeys

theorem Sound.append (h : Sound call loop) {raws : List RawCandle} {seen : Finset (ℤ × ℤ)}
    (hpage : Collected call raws seen) (hsubset : loop.seenKeys ⊆ seen)
    (hnew : ∀ raw ∈ raws, candleKey raw ∉ loop.seenKeys) : Collected call (loop.allCandles ++ raws) seen where
  wanted := List.forall_mem_append.mpr ⟨h.wanted, hpage.wanted⟩
  seen := List.forall_mem_append.mpr ⟨fun raw hraw => hsubset (h.seen raw hraw), hpage.seen⟩
  distinct := by
    rw [List.map_append]
    apply h.distinct.append hpage.distinct
    intro key hold hpaged
    obtain ⟨raw, hraw, rfl⟩ := List.mem_map.mp hold
    obtain ⟨raw', hraw', heq⟩ := List.mem_map.mp hpaged
    apply hnew raw' hraw'
    rw [heq]
    exact h.seen raw hraw

def Progress.position : Progress → PageLoop
  | .next loop | .complete loop => loop

theorem advance_collects {count : ℕ} {last : RawCandle} {progress : Progress}
    (h : advance call config loop count last = .ok progress) :
    progress.position.allCandles = loop.allCandles ∧ progress.position.seenKeys = loop.seenKeys := by
  simp only [advance] at h
  split_ifs at h
  all_goals
    cases h
    exact ⟨rfl, rfl⟩

theorem processPage_sound (h : Sound call loop) {page : SnapshotPage} {progress : Progress}
    (hpage : processPage call config loop page = .ok progress) : Sound call progress.position := by
  simp only [processPage] at hpage
  split at hpage
  · cases hpage
  · cases hpage
    exact h
  · obtain ⟨⟨found, seen⟩, hfound, hpage⟩ := except_bind_eq_ok.mp hpage
    obtain ⟨hcollected, hsubset, hnew⟩ := pageCandles_collected hfound
    have hperm := sortCandles_perm found
    have happend := h.append (hcollected.perm hperm) hsubset fun raw hraw => hnew raw (hperm.mem_iff.mp hraw)
    cases hlast : (sortCandles found).getLast? with
    | none =>
      simp only [hlast] at hpage
      cases hpage
      rw [List.getLast?_eq_none_iff.mp hlast, List.append_nil] at happend
      exact happend
    | some last =>
      simp only [hlast] at hpage
      obtain ⟨hall, hseen⟩ := advance_collects hpage
      simp only [Sound, hall, hseen]
      exact happend

theorem fetchPages_succ {left : ℕ} {page : SnapshotPage} {progress : Progress}
    (hanswer : client (config.maxPaginationPages - (left + 1)) (call.request loop.cursor) = .ok page)
    (hprocess : processPage call config loop page = .ok progress) :
    fetchPages client config call (left + 1) loop = match progress with
      | .complete loop' =>
        { requests := [call.request loop.cursor], outcome := .ok (sortCandles loop'.allCandles, loop'.rawPages) }
      | .next loop' => (fetchPages client config call left loop').after (call.request loop.cursor) := by
  have hturn : client (config.maxPaginationPages - (left + 1)) (call.request loop.cursor) >>=
      processPage call config loop = .ok progress := except_bind_eq_ok.mpr ⟨page, hanswer, hprocess⟩
  simp only [fetchPages, hturn]
  cases progress <;> rfl

theorem length_requests_fetchPages_le (left : ℕ) (loop : PageLoop) :
    (fetchPages client config call left loop).requests.length ≤ left := by
  induction left generalizing loop with
  | zero => exact le_rfl
  | succ left ih =>
    simp only [fetchPages]
    split
    · exact Nat.le_add_left 1 left
    · exact Nat.le_add_left 1 left
    · exact Nat.succ_le_succ (ih _)

theorem fetchPages_collected {left : ℕ} (h : Sound call loop) {raws : List RawCandle} {pages : List (List UInt8)}
    (hfetch : (fetchPages client config call left loop).outcome = .ok (raws, pages)) :
    (∀ raw ∈ raws, Wanted call raw) ∧ (raws.map candleKey).Nodup := by
  induction left generalizing loop with
  | zero => cases hfetch
  | succ left ih =>
    simp only [fetchPages] at hfetch
    split at hfetch
    · cases hfetch
    · rename_i loop' hpage
      cases hfetch
      obtain ⟨page, _, hpage⟩ := except_bind_eq_ok.mp hpage
      have hsorted := (processPage_sound h hpage).perm (sortCandles_perm loop'.allCandles)
      exact ⟨hsorted.wanted, hsorted.distinct⟩
    · rename_i loop' hpage
      obtain ⟨page, _, hpage⟩ := except_bind_eq_ok.mp hpage
      exact ih (processPage_sound h hpage) hfetch

end AnyPages

section HonestProvider

variable {client : Client} {config : SnapshotConfig} {call : FetchCall} {loop : PageLoop}

/-- A candle of the provider's, as it is sent and as the parser reads it. -/
structure Listed (call : FetchCall) where
  payload : CandlePayload
  raw : RawCandle
  parsed : parseCandle payload call.coin call.interval call.evaluationTime = .ok raw

/-- A history of candles that follow one another. -/
structure History (call : FetchCall) where
  listed : List (Listed call)
  consecutive : listed.Pairwise fun a b => a.payload.T < b.payload.t

namespace History

variable (history : History call)

def covering (startTime endTime : ℤ) : List (Listed call) :=
  history.listed.filter fun c => startTime ≤ c.payload.T ∧ c.payload.t ≤ endTime

def candles : List RawCandle :=
  (history.listed.map Listed.raw).filter fun raw => call.startTime ≤ raw.openTime ∧ raw.openTime ≤ call.endTime

def AnsweredBy (limit : ℕ) (client : Client) : Prop :=
  ∀ page cursor, ∃ raw, client page (call.request cursor) = .ok
    { payload := .items (((history.covering cursor call.endMs).take limit).map fun c => .candle c.payload), raw }

end History

variable {history : History call}

theorem Listed.times (c : Listed call) : toEpochMs c.raw.openTime = c.payload.t ∧
    toEpochMs c.raw.closeTime = c.payload.T ∧ c.payload.t < c.payload.T := by
  obtain ⟨hopen, hclose, hlt⟩ := parseCandle_times c.parsed
  rw [hopen, hclose, toEpochMs_mul, toEpochMs_mul]
  exact ⟨rfl, rfl, hlt⟩

theorem parseItem_listed {c : Listed call} (hend : c.payload.t ≤ call.endMs) :
    parseItem call (.candle c.payload) = .ok c.raw := by
  have hparsed := c.parsed
  simp only [FetchCall.coin, FetchCall.interval] at hparsed
  simp only [parseItem, parseSnapshotItem, hparsed, bind, Except.bind, c.times.1]
  exact if_neg (not_lt.mpr hend)

def wantedOf (rest : List (Listed call)) : List RawCandle :=
  (rest.map Listed.raw).filter fun raw => call.startMs ≤ toEpochMs raw.openTime

theorem wantedOf_append (rest rest' : List (Listed call)) :
    wantedOf (rest ++ rest') = wantedOf rest ++ wantedOf rest' := by
  simp only [wantedOf, List.map_append, List.filter_append]

theorem wantedOf_cons (c : Listed call) (rest : List (Listed call)) :
    wantedOf (c :: rest) = if call.startMs ≤ c.payload.t then c.raw :: wantedOf rest else wantedOf rest := by
  simp only [wantedOf, List.map_cons, List.filter_cons, c.times.1, decide_eq_true_eq]

theorem pageCandles_listed {page : List (Listed call)} {seen : Finset (ℤ × ℤ)}
    (hconsecutive : page.Pairwise fun a b => a.payload.T < b.payload.t)
    (hend : ∀ c ∈ page, c.payload.t ≤ call.endMs) (hseen : ∀ key ∈ seen, ∀ c ∈ page, key.1 < c.payload.t) :
    ∃ seen', pageCandles call (page.map fun c => .candle c.payload) seen = .ok (wantedOf page, seen') ∧
      ∀ key ∈ seen', key ∈ seen ∨ ∃ c ∈ page, key.1 = c.payload.t := by
  induction page generalizing seen with
  | nil => exact ⟨seen, rfl, fun key hkey => .inl hkey⟩
  | cons c page ih =>
    obtain ⟨hfirst, hconsecutive⟩ := List.pairwise_cons.mp hconsecutive
    obtain ⟨hopen, hclose, hlt⟩ := c.times
    have hend' : ∀ d ∈ page, d.payload.t ≤ call.endMs := fun d hd => hend d (List.mem_cons_of_mem _ hd)
    have hparse := parseItem_listed (hend c List.mem_cons_self)
    by_cases hearly : c.payload.t < call.startMs
    · obtain ⟨seen', hpage, hkeys⟩ := ih hconsecutive hend' fun key hkey d hd =>
        hseen key hkey d (List.mem_cons_of_mem _ hd)
      refine ⟨seen', ?_, ?_⟩
      · rw [wantedOf_cons, if_neg (not_le.mpr hearly), ← hpage]
        simp only [List.map_cons, pageCandles, hparse, bind, Except.bind, hopen]
        exact if_pos hearly
      · intro key hkey
        exact (hkeys key hkey).imp_right fun ⟨d, hd, heq⟩ => ⟨d, List.mem_cons_of_mem _ hd, heq⟩
    · have hfresh : candleKey c.raw ∉ seen := by
        intro hmem
        have hkey := hseen _ hmem c List.mem_cons_self
        simp only [candleKey, hopen, lt_irrefl] at hkey
      have hinsert : ∀ key ∈ insert (candleKey c.raw) seen, ∀ d ∈ page, key.1 < d.payload.t := by
        intro key hkey d hd
        cases Finset.mem_insert.mp hkey with
        | inl heq =>
          have hnext := hfirst d hd
          simp only [heq, candleKey, hopen]
          omega
        | inr hkey => exact hseen key hkey d (List.mem_cons_of_mem _ hd)
      obtain ⟨seen', hpage, hkeys⟩ := ih hconsecutive hend' hinsert
      refine ⟨seen', ?_, ?_⟩
      · rw [wantedOf_cons, if_pos (not_lt.mp hearly)]
        simp only [List.map_cons, pageCandles, hparse, bind, Except.bind, hopen, hpage, if_neg hearly, if_neg hfresh]
        rfl
      · intro key hkey
        cases hkeys key hkey with
        | inl hkey =>
          cases Finset.mem_insert.mp hkey with
          | inl heq => exact .inr ⟨c, List.mem_cons_self, by rw [heq, candleKey, hopen]⟩
          | inr hkey => exact .inl hkey
        | inr hkey =>
          obtain ⟨d, hd, heq⟩ := hkey
          exact .inr ⟨d, List.mem_cons_of_mem _ hd, heq⟩

theorem pairwise_wantedOf {rest : List (Listed call)}
    (h : rest.Pairwise fun a b => a.payload.T < b.payload.t) :
    (wantedOf rest).Pairwise fun a b => a.openTime < b.openTime := by
  apply List.Pairwise.filter
  apply List.Pairwise.map _ _ h
  intro a b hlt
  obtain ⟨ha, _, halt⟩ := parseCandle_times a.parsed
  have hb := (parseCandle_times b.parsed).1
  rw [ha, hb]
  have hopens : a.payload.t < b.payload.t := halt.trans hlt
  exact (Int.mul_lt_mul_right (by decide)).mpr hopens

theorem sortCandles_eq {raws : List RawCandle} (h : raws.Pairwise fun a b => a.openTime < b.openTime) :
    sortCandles raws = raws :=
  List.Pairwise.insertionSort_eq (h.imp fun hlt => hlt.le)

def sent (page : List (Listed call)) (raw : List UInt8) : SnapshotPage :=
  { payload := .items (page.map fun c => .candle c.payload), raw }

/-- What the loop has before it at a cursor: candles that follow one another, the first of which may open before the
start, and all of which are still to be seen. -/
structure Ahead (call : FetchCall) (loop : PageLoop) (rest : List (Listed call)) : Prop where
  consecutive : rest.Pairwise fun a b => a.payload.T < b.payload.t
  notAfter : ∀ c ∈ rest, c.payload.t ≤ call.endMs
  covered : ∀ c ∈ rest, loop.cursor ≤ c.payload.T
  cursor : call.startMs ≤ loop.cursor
  unseen : ∀ key ∈ loop.seenKeys, ∀ c ∈ rest, key.1 < c.payload.t
  progress : ∀ ms ∈ loop.lastProgressMs, ∀ c ∈ rest, ms < c.payload.t
  calm : loop.stagnantPages = 0
  sorted : (loop.allCandles ++ wantedOf rest).Pairwise fun a b => a.openTime < b.openTime

theorem Ahead.drop_eq_nil {rest page tail : List (Listed call)} {c : Listed call} (h : Ahead call loop rest)
    (hrest : rest = page ++ [c] ++ tail) (hend : call.endMs ≤ c.payload.T) : tail = [] := by
  apply List.eq_nil_iff_forall_not_mem.mpr
  intro d hd
  have hconsecutive := h.consecutive
  rw [hrest] at hconsecutive
  have hlt := (List.pairwise_append.mp hconsecutive).2.2 c (by simp) d hd
  have hle := h.notAfter d (by rw [hrest]; exact List.mem_append_right _ hd)
  omega

theorem Ahead.eq_nil_of_early {rest page tail : List (Listed call)} {c : Listed call} (h : Ahead call loop rest)
    (hrest : rest = page ++ [c] ++ tail) (hearly : c.payload.t < call.startMs) : page = [] := by
  apply List.eq_nil_iff_forall_not_mem.mpr
  intro b hb
  have hconsecutive := h.consecutive
  rw [hrest] at hconsecutive
  have hpage := (List.pairwise_append.mp hconsecutive).1
  have hlt := (List.pairwise_append.mp hpage).2.2 b hb c List.mem_cons_self
  have hle := h.covered b (by rw [hrest]; exact List.mem_append_left _ (List.mem_append_left _ hb))
  have hcursor := h.cursor
  omega

def afterPage (loop : PageLoop) (page : List (Listed call)) (c : Listed call) (seenKeys : Finset (ℤ × ℤ))
    (raw : List UInt8) : PageLoop where
  allCandles := loop.allCandles ++ wantedOf page
  rawPages := loop.rawPages ++ [raw]
  seenKeys
  cursor := c.payload.T + 1
  lastProgressMs := some c.payload.t
  stagnantPages := 0

theorem Ahead.afterPage {rest page tail : List (Listed call)} {c : Listed call} {seenKeys : Finset (ℤ × ℤ)}
    (raw : List UInt8) (h : Ahead call loop rest) (hrest : rest = page ++ [c] ++ tail)
    (hseen : ∀ key ∈ seenKeys, key ∈ loop.seenKeys ∨ ∃ d ∈ page ++ [c], key.1 = d.payload.t) :
    Ahead call (afterPage loop (page ++ [c]) c seenKeys raw) tail := by
  have hconsecutive := h.consecutive
  rw [hrest, List.pairwise_append] at hconsecutive
  obtain ⟨_, htail, hacross⟩ := hconsecutive
  have hmem : ∀ d ∈ tail, d ∈ rest := by
    intro d hd
    rw [hrest]
    exact List.mem_append_right _ hd
  have hlast : ∀ d ∈ tail, c.payload.T < d.payload.t := hacross c (by simp)
  have hc := c.times.2.2
  refine ⟨htail, fun d hd => h.notAfter d (hmem d hd), ?_, ?_, ?_, ?_, rfl, ?_⟩
  · intro d hd
    have hlt := hlast d hd
    have hd := d.times.2.2
    simp only [Pagination.afterPage]
    omega
  · have hcovered := h.covered c (by rw [hrest]; simp)
    have hcursor := h.cursor
    simp only [Pagination.afterPage]
    omega
  · intro key hkey d hd
    cases hseen key hkey with
    | inl hold => exact h.unseen key hold d (hmem d hd)
    | inr hnew =>
      obtain ⟨b, hb, heq⟩ := hnew
      rw [heq]
      exact b.times.2.2.trans (hacross b hb d hd)
  · intro ms hms d hd
    cases hms
    exact hc.trans (hlast d hd)
  · have hsorted := h.sorted
    rwa [hrest, wantedOf_append, ← List.append_assoc] at hsorted

theorem processPage_sent (config : SnapshotConfig) (raw : List UInt8) {page : List (Listed call)} (hpage : page ≠ [])
    {found : List RawCandle} {seenKeys : Finset (ℤ × ℤ)}
    (hfound : pageCandles call (page.map fun c => .candle c.payload) loop.seenKeys = .ok (found, seenKeys)) :
    processPage call config loop (sent page raw) =
      match (sortCandles found).getLast? with
      | none => .ok (.complete { loop with rawPages := loop.rawPages ++ [raw], seenKeys })
      | some last => advance call config { loop with
          rawPages := loop.rawPages ++ [raw]
          seenKeys
          allCandles := loop.allCandles ++ sortCandles found } page.length last := by
  cases page with
  | nil => contradiction
  | cons c page =>
    simp only [List.map_cons] at hfound
    simp only [processPage, sent, List.map_cons, hfound, bind, Except.bind, List.length_cons, List.length_map]

theorem advance_listed (config : SnapshotConfig) (count : ℕ) {c : Listed call}
    (hprogress : ∀ ms ∈ loop.lastProgressMs, ms < c.payload.t) :
    advance call config loop count c.raw =
      if call.endMs ≤ c.payload.t ∨ count < config.maxCandlesPerSnapshot then
        .ok (.complete { loop with stagnantPages := 0, lastProgressMs := some c.payload.t })
      else if call.endMs < c.payload.T + 1 then
        .ok (.complete { loop with
          stagnantPages := 0
          lastProgressMs := some c.payload.t
          cursor := c.payload.T + 1 })
      else .ok (.next { loop with
          stagnantPages := 0
          lastProgressMs := some c.payload.t
          cursor := c.payload.T + 1 }) := by
  obtain ⟨hopen, hclose, _⟩ := c.times
  have hmoved : loop.lastProgressMs.any (fun ms => decide (c.payload.t ≤ ms)) = false := by
    cases hlast : loop.lastProgressMs with
    | none => rfl
    | some ms => exact decide_eq_false (not_le.mpr (hprogress ms hlast))
  simp only [advance, hopen, hclose, hmoved]
  rfl

theorem processPage_listed {page tail : List (Listed call)} (h : Ahead call loop (page ++ tail))
    (hlimit : 2 ≤ config.maxCandlesPerSnapshot) (hfull : page.length < config.maxCandlesPerSnapshot → tail = [])
    (raw : List UInt8) :
    ∃ loop', loop'.allCandles ++ wantedOf tail = loop.allCandles ++ wantedOf (page ++ tail) ∧
      (processPage call config loop (sent page raw) = .ok (.complete loop') ∧ tail = [] ∨
      processPage call config loop (sent page raw) = .ok (.next loop') ∧
        config.maxCandlesPerSnapshot ≤ page.length ∧ Ahead call loop' tail ∧ loop.cursor ≤ loop'.cursor ∧
        ∀ d ∈ page, d.payload.T < loop'.cursor) := by
  cases List.eq_nil_or_concat' page with
  | inl hnil =>
    subst hnil
    have htail : tail = [] := hfull (by simp only [List.length_nil]; omega)
    subst htail
    exact ⟨{ loop with rawPages := loop.rawPages ++ [raw] }, rfl, .inl ⟨rfl, rfl⟩⟩
  | inr hconcat =>
    obtain ⟨init, c, rfl⟩ := hconcat
    have hpages := (List.pairwise_append.mp h.consecutive).1
    obtain ⟨seenKeys, hfound, hkeys⟩ := pageCandles_listed hpages
      (fun d hd => h.notAfter d (List.mem_append_left _ hd))
      (fun key hkey d hd => h.unseen key hkey d (List.mem_append_left _ hd))
    have hsort : sortCandles (wantedOf (init ++ [c])) = wantedOf (init ++ [c]) :=
      sortCandles_eq (pairwise_wantedOf hpages)
    have hprocess := processPage_sent config raw (by simp) hfound
    rw [hsort] at hprocess
    rw [hprocess]
    by_cases hearly : c.payload.t < call.startMs
    · have hinit := h.eq_nil_of_early rfl hearly
      subst hinit
      have hnone : wantedOf ([] ++ [c]) = [] := by
        rw [List.nil_append, wantedOf_cons, if_neg (not_le.mpr hearly)]
        rfl
      have htail : tail = [] := hfull (by simp only [List.nil_append, List.length_singleton]; omega)
      subst htail
      refine ⟨{ loop with rawPages := loop.rawPages ++ [raw], seenKeys }, ?_, .inl ⟨?_, rfl⟩⟩
      · rw [List.append_nil, hnone]
        rfl
      · rw [hnone]
        rfl
    · have hlast : (wantedOf (init ++ [c])).getLast? = some c.raw := by
        rw [wantedOf_append, wantedOf_cons, if_pos (not_lt.mp hearly)]
        exact List.getLast?_concat
      have hprogress : ∀ ms ∈ loop.lastProgressMs, ms < c.payload.t :=
        fun ms hms => h.progress ms hms c (by simp)
      have hlt := c.times.2.2
      have hall : loop.allCandles ++ wantedOf (init ++ [c]) ++ wantedOf tail =
          loop.allCandles ++ wantedOf (init ++ [c] ++ tail) := by
        rw [wantedOf_append (init ++ [c]) tail, List.append_assoc]
      simp only [hlast]
      rw [advance_listed config _ (by exact hprogress)]
      by_cases hdone : call.endMs ≤ c.payload.t ∨ (init ++ [c]).length < config.maxCandlesPerSnapshot
      · rw [if_pos hdone]
        refine ⟨_, hall, .inl ⟨rfl, ?_⟩⟩
        cases hdone with
        | inl hend => exact h.drop_eq_nil rfl (hend.trans hlt.le)
        | inr hshort => exact hfull hshort
      · rw [if_neg hdone]
        by_cases hpast : call.endMs < c.payload.T + 1
        · rw [if_pos hpast]
          exact ⟨_, hall, .inl ⟨rfl, h.drop_eq_nil rfl (by omega)⟩⟩
        · rw [if_neg hpast]
          have hahead := h.afterPage raw rfl hkeys
          refine ⟨_, hall, .inr ⟨rfl, not_lt.mp (not_or.mp hdone).2, hahead, ?_, ?_⟩⟩
          · have hcovered := h.covered c (by simp)
            simp only
            omega
          · intro d hd
            apply Int.lt_add_one_of_le
            cases List.mem_append.mp hd with
            | inl hd => exact ((List.pairwise_append.mp hpages).2.2 d hd c List.mem_cons_self).le.trans hlt.le
            | inr hd => exact (congrArg (fun d => d.payload.T) (List.mem_singleton.mp hd)).le

theorem History.covering_later (history : History call) {page tail : List (Listed call)} {cursor cursor' endMs : ℤ}
    (hcovering : history.covering cursor endMs = page ++ tail) (hle : cursor ≤ cursor')
    (hpage : ∀ c ∈ page, c.payload.T < cursor') (htail : ∀ c ∈ tail, cursor' ≤ c.payload.T) :
    history.covering cursor' endMs = tail := by
  have hfilter : history.covering cursor' endMs =
      (history.covering cursor endMs).filter fun c => cursor' ≤ c.payload.T := by
    simp only [History.covering, List.filter_filter]
    apply List.filter_congr
    intro c _
    by_cases hlater : cursor' ≤ c.payload.T
    · simp [hlater, hle.trans hlater]
    · simp [hlater]
  rw [hfilter, hcovering, List.filter_append, List.filter_eq_nil_iff.mpr, List.nil_append, List.filter_eq_self.mpr]
  · intro c hc
    exact decide_eq_true (htail c hc)
  · intro c hc
    simp only [decide_eq_true_eq, not_le]
    exact hpage c hc

theorem fetchPages_listed {left : ℕ} {rest : List (Listed call)}
    (hanswered : history.AnsweredBy config.maxCandlesPerSnapshot client)
    (hlimit : 2 ≤ config.maxCandlesPerSnapshot) (h : Ahead call loop rest)
    (hcovering : history.covering loop.cursor call.endMs = rest) :
    (∃ pages, (fetchPages client config call left loop).outcome = .ok (loop.allCandles ++ wantedOf rest, pages)) ∨
    (∃ cursor, (fetchPages client config call left loop).outcome =
      .error (call.paginationIncomplete config cursor)) ∧ left * config.maxCandlesPerSnapshot ≤ rest.length := by
  induction left generalizing loop rest with
  | zero => exact .inr ⟨⟨loop.cursor, rfl⟩, by simp⟩
  | succ left ih =>
    obtain ⟨raw, hanswer⟩ := hanswered (config.maxPaginationPages - (left + 1)) loop.cursor
    rw [hcovering] at hanswer
    have hsplit := List.take_append_drop config.maxCandlesPerSnapshot rest
    have hfull : (rest.take config.maxCandlesPerSnapshot).length < config.maxCandlesPerSnapshot →
        rest.drop config.maxCandlesPerSnapshot = [] := by
      intro hshort
      apply List.drop_eq_nil_of_le
      rw [List.length_take] at hshort
      omega
    generalize rest.take config.maxCandlesPerSnapshot = page at hanswer hsplit hfull
    generalize rest.drop config.maxCandlesPerSnapshot = tail at hsplit hfull
    subst hsplit
    obtain ⟨loop', hall, hprocess⟩ := processPage_listed h hlimit hfull raw
    cases hprocess with
    | inl hcomplete =>
      obtain ⟨hprocess, htail⟩ := hcomplete
      have hsorted := h.sorted
      rw [htail] at hall hsorted ⊢
      rw [← hall, show wantedOf ([] : List (Listed call)) = [] from rfl, List.append_nil] at hsorted ⊢
      refine .inl ⟨loop'.rawPages, ?_⟩
      rw [fetchPages_succ hanswer hprocess]
      simp only [sortCandles_eq hsorted]
    | inr hnext =>
      obtain ⟨hprocess, hcount, hahead, hcursor, hpage⟩ := hnext
      have hlater := history.covering_later hcovering hcursor hpage hahead.covered
      rw [fetchPages_succ hanswer hprocess, ← hall]
      apply (ih hahead hlater).imp_right
      rintro ⟨hincomplete, hleft⟩
      refine ⟨hincomplete, ?_⟩
      rw [List.length_append, Nat.succ_mul]
      omega

theorem ahead_start (history : History call) :
    Ahead call { cursor := call.startMs } (history.covering call.startMs call.endMs) where
  consecutive := history.consecutive.filter _
  notAfter c hc := (of_decide_eq_true (List.mem_filter.mp hc).2).2
  covered c hc := (of_decide_eq_true (List.mem_filter.mp hc).2).1
  cursor := le_rfl
  unseen := by simp
  progress := by simp
  calm := rfl
  sorted := pairwise_wantedOf (history.consecutive.filter _)

theorem wantedOf_covering (history : History call) (hstart : 1000 * call.startMs = call.startTime)
    (hend : 1000 * call.endMs = call.endTime) :
    wantedOf (history.covering call.startMs call.endMs) = history.candles := by
  simp only [wantedOf, History.covering, History.candles, List.filter_map, List.filter_filter, Function.comp_def]
  congr 1
  apply List.filter_congr
  intro c _
  obtain ⟨hopen, _, hlt⟩ := c.times
  have htime := (parseCandle_times c.parsed).1
  have hstart' : call.startTime ≤ c.raw.openTime ↔ call.startMs ≤ c.payload.t := by
    rw [htime, ← hstart, mul_comm]
    exact mul_le_mul_iff_left₀ (by decide)
  have hend' : c.raw.openTime ≤ call.endTime ↔ c.payload.t ≤ call.endMs := by
    rw [htime, ← hend, mul_comm 1000]
    exact mul_le_mul_iff_left₀ (by decide)
  simp only [hopen, hstart', hend', ← Bool.decide_and, decide_eq_decide]
  omega

end HonestProvider

section Exactness

variable {client : Client} {config : SnapshotConfig} {call : FetchCall}

theorem fetchCandles_returns {history : History call} (horder : call.startTime ≤ call.endTime)
    (hlimit : 2 ≤ config.maxCandlesPerSnapshot)
    (hanswered : history.AnsweredBy config.maxCandlesPerSnapshot client)
    (hpages : (history.covering call.startMs call.endMs).length <
      config.maxPaginationPages * config.maxCandlesPerSnapshot) :
    ∃ pages, (fetchCandlesWithRawPages client config call).outcome =
      .ok (wantedOf (history.covering call.startMs call.endMs), pages) := by
  simp only [fetchCandlesWithRawPages, if_neg (not_lt.mpr horder)]
  cases fetchPages_listed hanswered hlimit (ahead_start history) rfl with
  | inl hreturns => exact hreturns
  | inr hincomplete => exact absurd hincomplete.2 (not_le.mpr hpages)

theorem pagination_exact (client : Client) (config : SnapshotConfig) (call : FetchCall)
    (hstart : 1000 ∣ call.startTime) (hend : 1000 ∣ call.endTime) :
    (∀ history : History call, call.startTime ≤ call.endTime → 2 ≤ config.maxCandlesPerSnapshot →
      history.AnsweredBy config.maxCandlesPerSnapshot client →
      (∃ cursor, (fetchCandlesWithRawPages client config call).outcome =
        .error (call.paginationIncomplete config cursor)) ∨
      ∃ pages, (fetchCandlesWithRawPages client config call).outcome = .ok (history.candles, pages) ∧
        history.candles.Pairwise fun a b => a.openTime < b.openTime) ∧
    (fetchCandlesWithRawPages client config call).requests.length ≤ config.maxPaginationPages ∧
    ∀ raws pages, (fetchCandlesWithRawPages client config call).outcome = .ok (raws, pages) →
      (∀ raw ∈ raws, call.startTime ≤ raw.openTime ∧ raw.openTime ≤ call.endTime) ∧
      (raws.map fun raw => (raw.openTime, raw.closeTime)).Nodup := by
  have hstartMs : 1000 * call.startMs = call.startTime := Int.mul_ediv_cancel' hstart
  have hendMs : 1000 * call.endMs = call.endTime := Int.mul_ediv_cancel' hend
  refine ⟨?_, ?_, ?_⟩
  · intro history horder hlimit hanswered
    have hsorted : history.candles.Pairwise fun a b => a.openTime < b.openTime := by
      rw [← wantedOf_covering history hstartMs hendMs]
      exact pairwise_wantedOf (history.consecutive.filter _)
    simp only [fetchCandlesWithRawPages, if_neg (not_lt.mpr horder)]
    cases fetchPages_listed hanswered hlimit (ahead_start history) rfl with
    | inl hreturns =>
      obtain ⟨pages, hreturns⟩ := hreturns
      rw [wantedOf_covering history hstartMs hendMs] at hreturns
      exact .inr ⟨pages, hreturns, hsorted⟩
    | inr hincomplete => exact .inl hincomplete.1
  · simp only [fetchCandlesWithRawPages]
    split_ifs
    · exact Nat.zero_le _
    · exact length_requests_fetchPages_le _ _
  · intro raws pages hfetch
    simp only [fetchCandlesWithRawPages] at hfetch
    split_ifs at hfetch
    have hempty : Sound call { cursor := call.startMs } := ⟨by simp, by simp, by simp⟩
    obtain ⟨hwanted, hnodup⟩ := fetchPages_collected hempty hfetch
    refine ⟨?_, ?_⟩
    · intro raw hraw
      obtain ⟨hopen, hbefore, hafter⟩ := hwanted raw hraw
      rw [← hopen, ← hstartMs, ← hendMs]
      exact ⟨mul_le_mul_of_nonneg_left hbefore (by decide), mul_le_mul_of_nonneg_left hafter (by decide)⟩
    · apply List.Nodup.of_map fun times : Time × Time => (toEpochMs times.1, toEpochMs times.2)
      rw [List.map_map]
      exact hnodup

def History.provider (history : History call) (limit : ℕ) : Client := fun _ request => .ok
  { payload := .items (((history.covering request.startTime request.endTime).take limit).map fun c => .candle c.payload)
    raw := [] }

def threeDays : FetchCall where
  symbol := .BTC
  timeframe := .daily
  startTime := 19723 * day
  endTime := 19725 * day
  evaluationTime := 19730 * day

def dayPayload (n : ℤ) : CandlePayload :=
  { s := "BTC", i := "1d", t := n * 86400000, T := n * 86400000 + 86399999, o := 100, h := 110, l := 90, c := 105, v := 1 }

def dayRaw (n : ℤ) : RawCandle where
  providerSymbol := "BTC"
  timeframe := .daily
  openTime := n * 86400000 * 1000
  closeTime := (n * 86400000 + 86399999) * 1000
  openPrice := 100
  high := 110
  low := 90
  close := 105
  volume := 1
  isClosed := true
  known := by decide +kernel

def fourDays : History threeDays where
  listed := [⟨dayPayload 19722, dayRaw 19722, by decide +kernel⟩, ⟨dayPayload 19723, dayRaw 19723, by decide +kernel⟩,
    ⟨dayPayload 19724, dayRaw 19724, by decide +kernel⟩, ⟨dayPayload 19725, dayRaw 19725, by decide +kernel⟩]
  consecutive := by simp [dayPayload]

/-- Pages of two candles: the three days of the call come of them. -/
theorem four_days_fetched :
    ∃ pages, (fetchCandlesWithRawPages (fourDays.provider 2) { maxCandlesPerSnapshot := 2 } threeDays).outcome =
      .ok ([dayRaw 19723, dayRaw 19724, dayRaw 19725], pages) := by
  have hanswered : fourDays.AnsweredBy 2 (fourDays.provider 2) := fun page cursor => ⟨[], rfl⟩
  have hexact := pagination_exact (fourDays.provider 2) { maxCandlesPerSnapshot := 2 } threeDays (by decide) (by decide)
  have hpages : (fourDays.covering threeDays.startMs threeDays.endMs).length < 20 * 2 :=
    (List.length_filter_le _ _).trans_lt (by simp [fourDays])
  obtain ⟨returned, hreturns⟩ := @fetchCandles_returns (fourDays.provider 2) { maxCandlesPerSnapshot := 2 } threeDays
    fourDays (by decide) le_rfl hanswered hpages
  cases hexact.1 fourDays (by decide) le_rfl hanswered with
  | inl hincomplete =>
    obtain ⟨cursor, hincomplete⟩ := hincomplete
    rw [hreturns] at hincomplete
    cases hincomplete
  | inr hcandles =>
    obtain ⟨pages, hcandles, _⟩ := hcandles
    have hthree : fourDays.candles = [dayRaw 19723, dayRaw 19724, dayRaw 19725] := by decide +kernel
    exact ⟨pages, hthree ▸ hcandles⟩

end Exactness

end TradingBot.Market.Pagination
