import TradingBot.Library.Dictionary
import TradingBot.Library.Outcome
import TradingBot.Market.CanonicalTexts

namespace TradingBot.Research.SpecValues

open Library.Dictionary Library.DecimalNumbers Library.Outcome Market.Models Market.CanonicalTexts

/-- A value in a spec. A float has its `repr` and the integer that it equals, if there is one; a datetime its instant,
if it is aware; a dictionary its keys by their `str`; anything else is known by a description. -/
inductive Value
  | null
  | bool (b : Bool)
  | int (n : ℤ)
  | float (repr : String) (whole : Option ℤ)
  | text (s : String)
  | decimal (d : Dec)
  | datetime (utc : Option Time)
  | list (items : List Value)
  | tuple (items : List Value)
  | dict (entries : List (String × Value))
  | other (description : String)

abbrev Entries := List (String × Value)

@[elab_as_elim]
theorem Value.induction {motive : Value → Prop} (null : motive .null) (bool : ∀ b, motive (.bool b))
    (int : ∀ n, motive (.int n)) (float : ∀ repr whole, motive (.float repr whole)) (text : ∀ s, motive (.text s))
    (decimal : ∀ d, motive (.decimal d)) (datetime : ∀ utc, motive (.datetime utc))
    (list : ∀ items, (∀ v ∈ items, motive v) → motive (.list items))
    (tuple : ∀ items, (∀ v ∈ items, motive v) → motive (.tuple items))
    (dict : ∀ entries : Entries, (∀ e ∈ entries, motive e.2) → motive (.dict entries))
    (other : ∀ description, motive (.other description)) (v : Value) : motive v := by
  refine @Value.rec motive (fun items => ∀ v ∈ items, motive v) (fun entries => ∀ e ∈ entries, motive e.2)
    (fun e => motive e.2) null bool int float text decimal datetime list tuple dict other ?_ ?_ ?_ ?_ ?_ v
  all_goals simp_all

def get? (entries : Entries) (key : String) : Option Value := (entries.find? fun e => e.1 = key).map Prod.snd

section Canonical

def sortByKey {α : Type} (entries : List (String × α)) : List (String × α) := entries.insertionSort fun a b => a.1 ≤ b.1

/-- A dictionary from its items: of two with one key, the later one counts. -/
def dictOf (items : Entries) : Entries := items.foldl (fun entries e => setEntry e.1 e.2 entries) []

def pairWith (e : String × Except String Value) : Except String (String × Value) := e.2.map fun v => (e.1, v)

mutual

def canonicalValue : Value → Except String Value
  | .decimal d => (canonicalDecimal d).map .text
  | .datetime none => .error "timestamp must be timezone-aware UTC"
  | .datetime (some t) => .ok (.text (canonicalTimestamp t))
  | .dict entries => do
    let items ← (sortByKey (canonicalEntries entries)).mapM pairWith
    pure (.dict (dictOf items))
  | .list items => do
    let items ← (canonicalItems items).mapM id
    pure (.list items)
  | .tuple items => do
    let items ← (canonicalItems items).mapM id
    pure (.list items)
  | .null => .ok .null
  | .bool b => .ok (.bool b)
  | .int n => .ok (.int n)
  | .float repr whole => .ok (.float repr whole)
  | .text s => .ok (.text s)
  | .other description => .ok (.other description)

def canonicalItems : List Value → List (Except String Value)
  | [] => []
  | v :: items => canonicalValue v :: canonicalItems items

def canonicalEntries : List (String × Value) → List (String × Except String Value)
  | [] => []
  | (key, v) :: entries => (key, canonicalValue v) :: canonicalEntries entries

end

end Canonical

section Json

/-- The numbers of at most 4300 digits, which are those that can be written as a text. -/
def Writable (n : ℤ) : Prop := width n.natAbs ≤ 4300

instance (n : ℤ) : Decidable (Writable n) := inferInstanceAs (Decidable (_ ≤ _))

mutual

/-- What `json.dumps` writes, with keys of one kind only. Tuples are written too, but canonical values have none. -/
def isJson (admitted : String → Bool) : Value → Bool
  | .null | .bool _ | .float _ _ | .text _ => true
  | .int n => Writable n
  | .list items => itemsJson admitted items
  | .dict entries => entriesJson admitted entries
  | .decimal _ | .datetime _ | .tuple _ | .other _ => false

def itemsJson (admitted : String → Bool) : List Value → Bool
  | [] => true
  | v :: items => isJson admitted v && itemsJson admitted items

def entriesJson (admitted : String → Bool) : List (String × Value) → Bool
  | [] => true
  | (key, v) :: entries => admitted key && isJson admitted v && entriesJson admitted entries

end

/-- `json.dumps` of a canonical value, and the encoding of its text: nothing is lost on the way back. -/
def dumps (v : Value) : Except String Value :=
  if isJson (fun _ => true) v then .ok v else .error "Object is not JSON serializable"

end Json

section Secrets

def isSpace (c : Char) : Bool :=
  c.toNat ∈ [9, 10, 11, 12, 13, 28, 29, 30, 31, 32, 133, 160, 5760, 8232, 8233, 8239, 8287, 12288] ||
    (8192 ≤ c.toNat && c.toNat ≤ 8202)

/-- `lower` of a character, as far as it gives ASCII letters: the Kelvin sign and the dotted capital I do so too. -/
def lowerChar (c : Char) : List Char :=
  if c.toNat = 8490 then ['k'] else if c.toNat = 304 then ['i', Char.ofNat 775] else [c.toLower]

def normalizeKey (key : String) : List Char :=
  let stripped := ((key.toList.dropWhile isSpace).reverse.dropWhile isSpace).reverse
  (stripped.flatMap lowerChar).map fun c => if c = '-' then '_' else c

def forbiddenSecretKeyFragments : List String :=
  ["api_key", "apikey", "password", "passwd", "secret", "token", "private_key", "access_key", "secret_key"]

def isForbiddenSecretKey (key : String) : Bool :=
  let normalized := normalizeKey key
  forbiddenSecretKeyFragments.any (fun fragment => fragment.toList = normalized) ||
    ["password", "secret", "token", "api_key"].any fun fragment =>
      normalized.tails.any fragment.toList.isPrefixOf

def childPath (path key : String) : String := if path = "" then key else path ++ "." ++ key

mutual

def collectSecretKeys (path : String) : Value → List String
  | .dict entries => secretEntries path entries
  | .list items => secretItems path 0 items
  | .null | .bool _ | .int _ | .float _ _ | .text _ | .decimal _ | .datetime _ | .tuple _ | .other _ => []

def secretItems (path : String) (index : ℕ) : List Value → List String
  | [] => []
  | v :: items => collectSecretKeys (path ++ "[" ++ toString index ++ "]") v ++ secretItems path (index + 1) items

def secretEntries (path : String) : List (String × Value) → List String
  | [] => []
  | (key, v) :: entries =>
    (if isForbiddenSecretKey key then [childPath path key] else []) ++ collectSecretKeys (childPath path key) v ++
      secretEntries path entries

end

def assertNoSecrets (data : Value) : Except String Unit :=
  match collectSecretKeys "" data with
  | [] => .ok ()
  | hits => .error ("ExperimentSpec must not contain secrets; forbidden keys: " ++ ", ".intercalate hits)

end Secrets

section CanonicalForm

theorem canonicalItems_eq (items : List Value) : canonicalItems items = items.map canonicalValue := by
  induction items with
  | nil => rfl
  | cons v items ih => rw [canonicalItems, ih, List.map_cons]

theorem canonicalEntries_eq (entries : Entries) :
    canonicalEntries entries = entries.map fun e => (e.1, canonicalValue e.2) := by
  induction entries with
  | nil => rfl
  | cons e entries ih => rw [canonicalEntries, ih, List.map_cons]

variable {items items' : List Value} {entries entries' : Entries} {v w : Value}

theorem canonicalValue_list : canonicalValue (.list items) = (items.mapM canonicalValue).map .list := by
  rw [canonicalValue, canonicalItems_eq, List.mapM_map, Function.id_comp]
  cases items.mapM canonicalValue <;> rfl

theorem canonicalValue_tuple : canonicalValue (.tuple items) = (items.mapM canonicalValue).map .list :=
  canonicalValue_list

def canonicalEntry (e : String × Value) : Except String (String × Value) := (canonicalValue e.2).map fun v => (e.1, v)

theorem canonicalEntry_eq_ok {e e' : String × Value} :
    canonicalEntry e = .ok e' ↔ e.1 = e'.1 ∧ canonicalValue e.2 = .ok e'.2 := by
  obtain ⟨key, v⟩ := e'
  unfold canonicalEntry
  cases canonicalValue e.2 with
  | error text => simp [Except.map]
  | ok v' => simp [Except.map]

theorem sortByKey_map {α β : Type} (f : α → β) (entries : List (String × α)) :
    sortByKey (entries.map fun e => (e.1, f e.2)) = (sortByKey entries).map fun e => (e.1, f e.2) :=
  (List.map_insertionSort (fun a b : String × α => a.1 ≤ b.1) (fun a b : String × β => a.1 ≤ b.1)
    (fun e => (e.1, f e.2)) entries fun _ _ _ _ => Iff.rfl).symm

theorem canonicalValue_dict :
    canonicalValue (.dict entries) = ((sortByKey entries).mapM canonicalEntry).map fun items => .dict (dictOf items) := by
  rw [canonicalValue, canonicalEntries_eq, sortByKey_map, List.mapM_map]
  have hpair : (pairWith ∘ fun e => (e.1, canonicalValue e.2)) = canonicalEntry := rfl
  rw [hpair]
  cases (sortByKey entries).mapM canonicalEntry <;> rfl

theorem canonicalValue_dict_congr
    (h : List.Forall₂ (fun e e' => e.1 = e'.1 ∧ canonicalValue e.2 = canonicalValue e'.2) entries entries') :
    canonicalValue (.dict entries) = canonicalValue (.dict entries') := by
  have hsame : canonicalEntries entries = canonicalEntries entries' := by
    induction h with
    | nil => rfl
    | cons hfirst _ ih => simp only [canonicalEntries, ih, hfirst.1, hfirst.2]
  rw [canonicalValue, canonicalValue, hsame]

end CanonicalForm

section Dictionaries

variable {items entries : Entries}

theorem setEntry_of_not_mem {key : String} {v : Value} (h : key ∉ entries.map Prod.fst) :
    setEntry key v entries = entries ++ [(key, v)] := by
  induction entries with
  | nil => rfl
  | cons e entries ih =>
    rw [List.map_cons, List.mem_cons, not_or] at h
    rw [setEntry, if_neg (Ne.symm h.1), ih h.2, List.cons_append]

theorem mem_setEntry {key : String} {v : Value} {e : String × Value} (h : e ∈ setEntry key v entries) :
    e = (key, v) ∨ e ∈ entries := by
  induction entries with
  | nil => exact .inl (List.mem_singleton.mp h)
  | cons first entries ih =>
    unfold setEntry at h
    split_ifs at h
    · cases List.mem_cons.mp h with
      | inl heq => exact .inl heq
      | inr hmem => exact .inr (List.mem_cons_of_mem _ hmem)
    · cases List.mem_cons.mp h with
      | inl heq => exact .inr (heq ▸ List.mem_cons_self)
      | inr hmem =>
        cases ih hmem with
        | inl heq => exact .inl heq
        | inr hmem => exact .inr (List.mem_cons_of_mem _ hmem)

theorem dictOf_concat (items : Entries) (e : String × Value) : dictOf (items ++ [e]) = setEntry e.1 e.2 (dictOf items) := by
  simp [dictOf]

theorem mem_dictOf {e : String × Value} (h : e ∈ dictOf items) : e ∈ items := by
  induction items using List.reverseRecOn with
  | nil => exact h
  | append_singleton items last ih =>
    rw [dictOf_concat] at h
    cases mem_setEntry h with
    | inl heq => exact List.mem_append_right _ (by simp [heq])
    | inr hmem => exact List.mem_append_left _ (ih hmem)

theorem dictOf_of_nodup (h : (items.map Prod.fst).Nodup) : dictOf items = items := by
  induction items using List.reverseRecOn with
  | nil => rfl
  | append_singleton items last ih =>
    rw [List.map_append, List.nodup_append] at h
    have hnew : last.1 ∉ items.map Prod.fst := fun hmem => h.2.2 last.1 hmem last.1 (by simp) rfl
    rw [dictOf_concat, ih h.1, setEntry_of_not_mem hnew]

theorem dictOf_sorted (h : items.Pairwise fun a b => a.1 ≤ b.1) : (dictOf items).Pairwise fun a b => a.1 < b.1 := by
  induction items using List.reverseRecOn with
  | nil => exact List.Pairwise.nil
  | append_singleton items last ih =>
    obtain ⟨hitems, _, hlast⟩ := List.pairwise_append.mp h
    rw [dictOf_concat]
    by_cases hmem : last.1 ∈ (dictOf items).map Prod.fst
    · have hkeys : (setEntry last.1 last.2 (dictOf items)).map Prod.fst = (dictOf items).map Prod.fst := by
        rw [setEntry_keys, if_pos hmem]
      have hsorted := List.pairwise_map.mpr (ih hitems)
      rw [← hkeys] at hsorted
      exact List.pairwise_map.mp hsorted
    · rw [setEntry_of_not_mem hmem]
      refine List.pairwise_append.mpr ⟨ih hitems, List.pairwise_singleton _ _, ?_⟩
      intro a ha b hb
      obtain rfl := List.mem_singleton.mp hb
      refine lt_of_le_of_ne (hlast a (mem_dictOf ha) _ (by simp)) ?_
      intro heq
      exact hmem (List.mem_map.mpr ⟨a, ha, heq⟩)

theorem keys_nodup_of_sorted (h : items.Pairwise fun a b => a.1 < b.1) : (items.map Prod.fst).Nodup :=
  (List.pairwise_map.mpr h).imp fun hlt => hlt.ne

instance : Std.Total fun a b : String × Value => a.1 ≤ b.1 := ⟨fun a b => le_total a.1 b.1⟩

instance : IsTrans (String × Value) fun a b => a.1 ≤ b.1 := ⟨fun _ _ _ => le_trans⟩

theorem sortByKey_perm (entries : Entries) : (sortByKey entries).Perm entries := List.perm_insertionSort _ entries

theorem sortByKey_sorted (entries : Entries) : (sortByKey entries).Pairwise fun a b => a.1 ≤ b.1 :=
  List.pairwise_insertionSort _ entries

variable (h : (sortByKey entries).mapM canonicalEntry = .ok items)

include h

theorem keys_of_canonical : (sortByKey entries).map Prod.fst = items.map Prod.fst :=
  map_eq_of_mapM_ok (fun _ _ he => (canonicalEntry_eq_ok.mp he).1) h

theorem sorted_of_canonical : items.Pairwise fun a b => a.1 ≤ b.1 := by
  have hsorted := List.pairwise_map.mpr (sortByKey_sorted entries)
  rw [keys_of_canonical h] at hsorted
  exact List.pairwise_map.mp hsorted

theorem nodup_of_canonical (hnodup : (entries.map Prod.fst).Nodup) : (items.map Prod.fst).Nodup := by
  rw [← keys_of_canonical h]
  exact (((sortByKey_perm entries).map Prod.fst).nodup_iff).mpr hnodup

end Dictionaries

section Fixpoint

variable {v w : Value}

theorem canonicalValue_fixed (h : canonicalValue v = .ok w) : canonicalValue w = .ok w := by
  induction v using Value.induction generalizing w with
  | null | bool | int | float | text | other =>
    cases h
    rfl
  | decimal d =>
    obtain ⟨text, _, rfl⟩ : ∃ text, canonicalDecimal d = .ok text ∧ w = .text text := by
      rw [canonicalValue] at h
      cases hd : canonicalDecimal d with
      | error e =>
        rw [hd] at h
        cases h
      | ok text =>
        rw [hd] at h
        cases h
        exact ⟨text, rfl, rfl⟩
    rfl
  | datetime utc =>
    cases utc with
    | none => cases h
    | some t =>
      cases h
      rfl
  | list items ih | tuple items ih =>
    obtain ⟨items', hitems, rfl⟩ := except_map_eq_ok.mp (canonicalValue_list.symm.trans h)
    have hfixed : items'.mapM canonicalValue = .ok (items'.map id) := by
      apply mapM_ok
      intro w hw
      obtain ⟨v, hv, hvalue⟩ := mapM_ok_mem hitems hw
      exact ih v hv hvalue
    rw [canonicalValue_list, hfixed, List.map_id]
    rfl
  | dict entries ih =>
    rw [canonicalValue_dict, except_map_eq_ok] at h
    obtain ⟨items, hitems, rfl⟩ := h
    have hsorted := dictOf_sorted (sorted_of_canonical hitems)
    have hsort : sortByKey (dictOf items) = dictOf items := (hsorted.imp le_of_lt).insertionSort_eq
    have hfixed : (dictOf items).mapM canonicalEntry = .ok ((dictOf items).map id) := by
      apply mapM_ok
      intro e he
      obtain ⟨e', he', hentry⟩ := mapM_ok_mem hitems (mem_dictOf he)
      have hvalue := ih e' ((sortByKey_perm entries).mem_iff.mp he') (canonicalEntry_eq_ok.mp hentry).2
      exact canonicalEntry_eq_ok.mpr ⟨rfl, hvalue⟩
    rw [canonicalValue_dict, hsort, hfixed, List.map_id]
    exact congrArg Except.ok (congrArg Value.dict (dictOf_of_nodup (keys_nodup_of_sorted hsorted)))

end Fixpoint

section Records

variable {entries entries' items : Entries} {key : String} {v w : Value}

theorem get?_of_mem (hnodup : (entries.map Prod.fst).Nodup) (h : (key, v) ∈ entries) : get? entries key = some v := by
  induction entries with
  | nil => exact absurd h List.not_mem_nil
  | cons e entries ih =>
    rw [List.map_cons, List.nodup_cons] at hnodup
    unfold get?
    cases List.mem_cons.mp h with
    | inl heq => simp [← heq]
    | inr hmem =>
      have hne : e.1 ≠ key := fun heq => hnodup.1 (heq ▸ List.mem_map.mpr ⟨_, hmem, rfl⟩)
      rw [List.find?_cons_of_neg (by simpa using hne)]
      exact ih hnodup.2 hmem

theorem get?_eq_none_iff : get? entries key = none ↔ key ∉ entries.map Prod.fst := by
  simp only [get?, Option.map_eq_none_iff, List.find?_eq_none, decide_eq_true_eq, List.mem_map, not_exists, not_and]

theorem mem_of_get? (h : get? entries key = some v) : (key, v) ∈ entries := by
  obtain ⟨e, he, rfl⟩ := Option.map_eq_some_iff.mp h
  obtain rfl : e.1 = key := by simpa using List.find?_some he
  exact List.mem_of_find?_eq_some he

theorem canonical_record (hnodup : (entries.map Prod.fst).Nodup) (h : canonicalValue (.dict entries) = .ok w) :
    ∃ items, w = .dict items ∧ (∀ e ∈ entries, ∃ v, canonicalValue e.2 = .ok v ∧ get? items e.1 = some v) ∧
      ∀ key, key ∈ items.map Prod.fst ↔ key ∈ entries.map Prod.fst := by
  obtain ⟨items, hitems, rfl⟩ := except_map_eq_ok.mp (canonicalValue_dict.symm.trans h)
  have hkeys := nodup_of_canonical hitems hnodup
  refine ⟨items, by rw [dictOf_of_nodup hkeys], ?_, ?_⟩
  · intro e he
    obtain ⟨⟨key, v⟩, hmem, hentry⟩ := mapM_mem_ok hitems ((sortByKey_perm entries).mem_iff.mpr he)
    obtain ⟨rfl, hvalue⟩ := canonicalEntry_eq_ok.mp hentry
    exact ⟨v, hvalue, get?_of_mem hkeys hmem⟩
  · intro key
    rw [← keys_of_canonical hitems]
    exact ((sortByKey_perm entries).map Prod.fst).mem_iff

end Records

section Passing

variable {admitted : String → Bool} {items : List Value} {entries : Entries} {v w : Value}

theorem itemsJson_iff : itemsJson admitted items = true ↔ ∀ v ∈ items, isJson admitted v = true := by
  induction items with
  | nil => simp [itemsJson]
  | cons v items ih => simp [itemsJson, ih]

theorem entriesJson_iff :
    entriesJson admitted entries = true ↔ ∀ e ∈ entries, admitted e.1 = true ∧ isJson admitted e.2 = true := by
  induction entries with
  | nil => simp [entriesJson]
  | cons e entries ih => simp [entriesJson, ih]

def harmless (key : String) : Bool := !isForbiddenSecretKey key

theorem itemsJson_harmless (h : ∀ v ∈ items, ∀ path,
    (isJson harmless v = true ↔ isJson (fun _ => true) v = true ∧ collectSecretKeys path v = []))
    (path : String) (index : ℕ) : itemsJson harmless items = true ↔
      itemsJson (fun _ => true) items = true ∧ secretItems path index items = [] := by
  induction items generalizing index with
  | nil => simp [itemsJson, secretItems]
  | cons v items ih =>
    have hfirst := h v List.mem_cons_self (path ++ "[" ++ toString index ++ "]")
    have hrest := ih (fun v hv => h v (List.mem_cons_of_mem _ hv)) (index + 1)
    simp only [itemsJson, secretItems, Bool.and_eq_true, List.append_eq_nil_iff, hfirst, hrest]
    tauto

theorem entriesJson_harmless (h : ∀ e ∈ entries, ∀ path,
    (isJson harmless e.2 = true ↔ isJson (fun _ => true) e.2 = true ∧ collectSecretKeys path e.2 = []))
    (path : String) : entriesJson harmless entries = true ↔
      entriesJson (fun _ => true) entries = true ∧ secretEntries path entries = [] := by
  induction entries with
  | nil => simp [entriesJson, secretEntries]
  | cons e entries ih =>
    have hfirst := h e List.mem_cons_self (childPath path e.1)
    have hrest := ih fun e he => h e (List.mem_cons_of_mem _ he)
    cases hkey : isForbiddenSecretKey e.1 with
    | true => simp [entriesJson, secretEntries, harmless, hkey]
    | false =>
      simp only [entriesJson, secretEntries, Bool.and_eq_true, List.append_eq_nil_iff, hfirst, hrest, harmless, hkey,
        Bool.not_false, Bool.false_eq_true, if_false, true_and]
      exact ⟨fun h => ⟨⟨h.1.1, h.2.1⟩, h.1.2, h.2.2⟩, fun h => ⟨⟨h.1.1, h.2.1⟩, h.1.2, h.2.2⟩⟩

theorem isJson_harmless (v : Value) (path : String) : isJson harmless v = true ↔
    isJson (fun _ => true) v = true ∧ collectSecretKeys path v = [] := by
  induction v using Value.induction generalizing path with
  | null | bool | int | float | text | decimal | datetime | tuple | other => simp [isJson, collectSecretKeys]
  | list items ih => exact itemsJson_harmless ih path 0
  | dict entries ih => exact entriesJson_harmless ih path

/-- The value has a canonical form that is written, with keys of one kind only. -/
def Passes (admitted : String → Bool) (v : Value) : Prop := ∃ w, canonicalValue v = .ok w ∧ isJson admitted w = true

instance (admitted : String → Bool) (v : Value) : Decidable (Passes admitted v) :=
  match h : canonicalValue v with
  | .error _ => isFalse (by simp [Passes, h])
  | .ok w => decidable_of_iff (isJson admitted w = true) (by simp [Passes, h])

theorem passes_record (hnodup : (entries.map Prod.fst).Nodup) :
    Passes admitted (.dict entries) ↔ ∀ e ∈ entries, admitted e.1 = true ∧ Passes admitted e.2 := by
  constructor
  · rintro ⟨w, hw, hjson⟩ e he
    obtain ⟨items, rfl, hfields, _⟩ := canonical_record hnodup hw
    obtain ⟨v, hv, hget⟩ := hfields e he
    have hentry := entriesJson_iff.mp hjson _ (mem_of_get? hget)
    exact ⟨hentry.1, v, hv, hentry.2⟩
  · intro h
    obtain ⟨items, hitems, hall⟩ : ∃ items, (sortByKey entries).mapM canonicalEntry = .ok items ∧
        ∀ e ∈ items, admitted e.1 = true ∧ isJson admitted e.2 = true := by
      apply mapM_all
      intro e he
      obtain ⟨hkey, v, hv, hjson⟩ := h e ((sortByKey_perm entries).mem_iff.mp he)
      exact ⟨(e.1, v), canonicalEntry_eq_ok.mpr ⟨rfl, hv⟩, hkey, hjson⟩
    refine ⟨.dict (dictOf items), ?_, entriesJson_iff.mpr fun e he => hall e (mem_dictOf he)⟩
    rw [canonicalValue_dict, hitems]
    rfl

theorem passes_list : Passes admitted (.list items) ↔ ∀ v ∈ items, Passes admitted v := by
  constructor
  · rintro ⟨w, hw, hjson⟩ v hv
    obtain ⟨items', hitems, rfl⟩ := except_map_eq_ok.mp (canonicalValue_list.symm.trans hw)
    obtain ⟨v', hv', hvalue⟩ := mapM_mem_ok hitems hv
    exact ⟨v', hvalue, itemsJson_iff.mp hjson v' hv'⟩
  · intro h
    obtain ⟨items', hitems, hall⟩ : ∃ items', items.mapM canonicalValue = .ok items' ∧
        ∀ v ∈ items', isJson admitted v = true := mapM_all h
    refine ⟨.list items', ?_, itemsJson_iff.mpr hall⟩
    rw [canonicalValue_list, hitems]
    rfl

theorem passes_tuple : Passes admitted (.tuple items) ↔ ∀ v ∈ items, Passes admitted v := passes_list

@[simp] theorem passes_null : Passes admitted .null := ⟨.null, rfl, rfl⟩

@[simp] theorem passes_bool (b : Bool) : Passes admitted (.bool b) := ⟨.bool b, rfl, rfl⟩

@[simp] theorem passes_text (s : String) : Passes admitted (.text s) := ⟨.text s, rfl, rfl⟩

@[simp] theorem passes_datetime (t : Time) : Passes admitted (.datetime (some t)) := ⟨_, rfl, rfl⟩

@[simp] theorem passes_int {n : ℤ} : Passes admitted (.int n) ↔ Writable n := by
  constructor
  · rintro ⟨w, hw, hjson⟩
    cases hw
    exact of_decide_eq_true hjson
  · intro h
    exact ⟨.int n, rfl, decide_eq_true h⟩

theorem canonicalValue_decimal {d : Dec} : canonicalValue (.decimal d) = .ok w ↔
    ∃ n, defaultContext.normalize d = some n ∧ w = .text (String.ofList (Library.DecimalTexts.plain n)) := by
  rw [canonicalValue, except_map_eq_ok]
  simp only [canonicalDecimal_eq_ok]
  constructor
  · rintro ⟨text, ⟨n, hn, rfl⟩, rfl⟩
    exact ⟨n, hn, rfl⟩
  · rintro ⟨n, hn, rfl⟩
    exact ⟨_, ⟨n, hn, rfl⟩, rfl⟩

@[simp] theorem passes_decimal {d : Dec} :
    Passes admitted (.decimal d) ↔ (defaultContext.normalize d).isSome := by
  rw [Option.isSome_iff_exists]
  constructor
  · rintro ⟨w, hw, _⟩
    obtain ⟨n, hn, _⟩ := canonicalValue_decimal.mp hw
    exact ⟨n, hn⟩
  · rintro ⟨n, hn⟩
    exact ⟨_, canonicalValue_decimal.mpr ⟨n, hn, rfl⟩, rfl⟩

end Passing

end TradingBot.Research.SpecValues
