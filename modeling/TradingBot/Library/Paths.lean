import Mathlib.Data.List.Induction
import TradingBot.Library.Dictionary

namespace TradingBot.Library.Paths

open Library.Dictionary

abbrev Path := List String

structure Reference where
  absolute : Bool := false
  parts : List String
deriving DecidableEq, Repr

def Reference.base (r : Reference) (cur : Path) : Path := if r.absolute then [] else cur

/-- An absolute path on the right replaces the one on the left. -/
def Reference.join (r r' : Reference) : Reference :=
  if r'.absolute then r' else { r with parts := r.parts ++ r'.parts }

inductive Node (α : Type)
  | directory
  | file (data : α)
  | link (target : Reference)
  | special
deriving DecidableEq, Repr

/-- Files, directories and symbolic links. What exists lies in a directory. -/
structure FileTree (α : Type) where
  nodes : Dict Path (Node α)
  root : nodes.get? [] = some .directory
  rooted : ∀ path ∈ nodes.keys, path ≠ [] → nodes.get? path.dropLast = some .directory

inductive Step
  | into (path : Path)
  | follow (target : Reference)
  | missing
deriving DecidableEq, Repr

def Ordinary (name : String) : Prop := name ≠ "" ∧ name ≠ "." ∧ name ≠ ".."

namespace FileTree

variable {α : Type} (tree : FileTree α)

def node (path : Path) : Option (Node α) := tree.nodes.get? path

def isDirectory (path : Path) : Bool :=
  match tree.node path with
  | some .directory => true
  | _ => false

def step (cur : Path) (name : String) : Step :=
  if name = "" ∨ name = "." then .into cur
  else if name = ".." then .into cur.dropLast
  else
    match tree.node (cur ++ [name]) with
    | none => .missing
    | some (.link target) => .follow target
    | some _ => .into (cur ++ [name])

/-- How the system follows a path: each name is looked up in a directory, and a link before the names after it. -/
def walkWith (expand : Path → List String → Option Path) : Path → List String → Option Path
  | cur, [] => some cur
  | cur, name :: rest =>
    if tree.isDirectory cur then
      match tree.step cur name with
      | .into path => walkWith expand path rest
      | .follow target => expand (target.base cur) (target.parts ++ rest)
      | .missing => none
    else none

/-- With the number of links that are followed at most. -/
def walk : ℕ → Path → List String → Option Path
  | 0 => tree.walkWith fun _ _ => none
  | links + 1 => tree.walkWith (walk links)

/-- How a path is made canonical: what is missing is kept as it is written. -/
def realWith (expand : Path → List String → Option Path) : Path → List String → Option Path
  | cur, [] => some cur
  | cur, name :: rest =>
    match tree.step cur name with
    | .into path => realWith expand path rest
    | .follow target =>
      match expand (target.base cur) target.parts with
      | none => none
      | some path => realWith expand path rest
    | .missing => realWith expand (cur ++ [name]) rest

/-- With the depth to which links may lead to links. -/
def realpath : ℕ → Path → List String → Option Path
  | 0 => tree.realWith fun _ _ => none
  | depth + 1 => tree.realWith (realpath depth)

def Plain : Path → List String → Prop
  | _, [] => True
  | cur, name :: rest =>
    Ordinary name ∧ (∀ target, tree.node (cur ++ [name]) ≠ some (.link target)) ∧ Plain (cur ++ [name]) rest

/-- A path leads from a directory to where the system finds it with so many links. -/
inductive Leads : ℕ → Path → List String → Path → Prop
  | here (links : ℕ) (cur : Path) : Leads links cur [] cur
  | into {links : ℕ} {cur next path : Path} {name : String} {rest : List String} (directory : tree.isDirectory cur)
      (step : tree.step cur name = .into next) (found : Leads links next rest path) :
      Leads links cur (name :: rest) path
  | follow {links : ℕ} {cur path : Path} {name : String} {rest : List String} {target : Reference}
      (directory : tree.isDirectory cur) (step : tree.step cur name = .follow target)
      (found : Leads links (target.base cur) (target.parts ++ rest) path) : Leads (links + 1) cur (name :: rest) path

section Walks

variable {tree} {cur path path' : Path} {name : String} {target : Reference} {names rest : List String}
  {links links' depth : ℕ}

theorem leads_of_walkWith {expand : Path → List String → Option Path}
    (hexpand : ∀ cur names path, expand cur names = some path → ∃ fewer, links = fewer + 1 ∧
      Leads tree fewer cur names path) (h : tree.walkWith expand cur names = some path) :
    Leads tree links cur names path := by
  induction names generalizing cur with
  | nil =>
    cases h
    exact .here links _
  | cons name rest ih =>
    by_cases hdirectory : tree.isDirectory cur = true
    · cases hstep : tree.step cur name with
      | into next =>
        simp only [walkWith, hdirectory, hstep, if_true] at h
        exact .into hdirectory hstep (ih h)
      | follow target =>
        simp only [walkWith, hdirectory, hstep, if_true] at h
        obtain ⟨fewer, hlinks, hfound⟩ := hexpand _ _ _ h
        subst hlinks
        exact .follow hdirectory hstep hfound
      | missing => simp [walkWith, hdirectory, hstep] at h
    · simp [walkWith, hdirectory] at h

theorem leads_of_walk (h : tree.walk links cur names = some path) : Leads tree links cur names path := by
  induction links generalizing cur names path with
  | zero => exact leads_of_walkWith (fun _ _ _ h => by cases h) h
  | succ links ih => exact leads_of_walkWith (fun _ _ _ h => ⟨links, rfl, ih h⟩) h

theorem walk_of_leads (h : Leads tree links cur names path) : tree.walk links cur names = some path := by
  induction h with
  | here links cur =>
    cases links with
    | zero => rfl
    | succ links => rfl
  | @into links cur next path name rest hdirectory hstep _ ih =>
    cases links with
    | zero =>
      simp only [walk] at ih
      simp only [walk, walkWith, hdirectory, hstep, if_true, ih]
    | succ links =>
      simp only [walk] at ih
      simp only [walk, walkWith, hdirectory, hstep, if_true, ih]
  | follow hdirectory hstep _ ih => simp only [walk, walkWith, hdirectory, hstep, if_true, ih]

theorem Leads.isDirectory (h : Leads tree links cur (name :: rest) path) : tree.isDirectory cur = true := by
  cases h with
  | into hdirectory _ _ => exact hdirectory
  | follow hdirectory _ _ => exact hdirectory

theorem Leads.mono (h : Leads tree links cur names path) (hle : links ≤ links') : Leads tree links' cur names path := by
  induction h generalizing links' with
  | here links cur => exact .here links' cur
  | into hdirectory hstep _ ih => exact .into hdirectory hstep (ih hle)
  | @follow links cur path name rest target hdirectory hstep _ ih =>
    cases links' with
    | zero => omega
    | succ links' => exact .follow hdirectory hstep (ih (Nat.le_of_succ_le_succ hle))

theorem Leads.split (h : Leads tree links cur (names ++ rest) path) :
    ∃ middle, Leads tree links cur names middle ∧ Leads tree links middle rest path := by
  generalize hall : names ++ rest = all at h
  induction h generalizing names with
  | here links cur =>
    obtain ⟨hnames, hrest⟩ := List.append_eq_nil_iff.mp hall
    subst hnames hrest
    exact ⟨cur, .here links cur, .here links cur⟩
  | @into links cur next path name tail hdirectory hstep hfound ih =>
    cases names with
    | nil =>
      rw [List.nil_append] at hall
      subst hall
      exact ⟨cur, .here links cur, .into hdirectory hstep hfound⟩
    | cons first names =>
      cases hall
      obtain ⟨middle, hmiddle, hrest⟩ := ih rfl
      exact ⟨middle, .into hdirectory hstep hmiddle, hrest⟩
  | @follow links cur path name tail target hdirectory hstep hfound ih =>
    cases names with
    | nil =>
      rw [List.nil_append] at hall
      subst hall
      exact ⟨cur, .here _ cur, .follow hdirectory hstep hfound⟩
    | cons first names =>
      cases hall
      obtain ⟨middle, hmiddle, hrest⟩ := ih (List.append_assoc target.parts names rest)
      exact ⟨middle, .follow hdirectory hstep hmiddle, hrest.mono (Nat.le_succ links)⟩

theorem Leads.append {middle : Path} (h : Leads tree links cur names middle)
    (h' : Leads tree links' middle rest path) : Leads tree (links + links') cur (names ++ rest) path := by
  induction h with
  | here links cur => exact h'.mono (Nat.le_add_left links' links)
  | into hdirectory hstep _ ih => exact .into hdirectory hstep (ih h')
  | @follow links cur middle name tail target hdirectory hstep _ ih =>
    have hfound := ih h'
    rw [List.append_assoc] at hfound
    have hmore := Leads.follow hdirectory hstep hfound
    rwa [Nat.add_right_comm] at hmore

theorem isDirectory_iff : tree.isDirectory path = true ↔ tree.node path = some .directory := by
  simp only [isDirectory]
  split
  · rename_i hnode
    simp [hnode]
  · rename_i hother
    simp only [Bool.false_eq_true, false_iff]
    exact hother

theorem node_dropLast (h : (tree.node path).isSome) : (tree.node path.dropLast).isSome := by
  by_cases hroot : path = []
  · subst hroot
    exact h
  · rw [show tree.node path.dropLast = some .directory from
      tree.rooted path (Dict.get?_isSome_iff.mp h) hroot]
    rfl

theorem node_step {next : Path} (h : tree.step cur name = .into next) (hcur : (tree.node cur).isSome) :
    (tree.node next).isSome := by
  simp only [step] at h
  split_ifs at h
  · cases h
    exact hcur
  · cases h
    exact node_dropLast hcur
  · cases hnode : tree.node (cur ++ [name]) with
    | none => simp [hnode] at h
    | some node =>
      cases node with
      | link target => simp [hnode] at h
      | directory =>
        simp only [hnode, Step.into.injEq] at h
        simp [← h, hnode]
      | file data =>
        simp only [hnode, Step.into.injEq] at h
        simp [← h, hnode]
      | special =>
        simp only [hnode, Step.into.injEq] at h
        simp [← h, hnode]

theorem node_of_leads (h : Leads tree links cur names path) (hcur : (tree.node cur).isSome) :
    (tree.node path).isSome := by
  induction h with
  | here links cur => exact hcur
  | into _ hstep _ ih => exact ih (node_step hstep hcur)
  | @follow links cur path name rest target _ _ _ ih =>
    apply ih
    simp only [Reference.base]
    split_ifs
    · simp only [node, tree.root, Option.isSome_some]
    · exact hcur

end Walks

section Canonical

variable {tree} {cur path path' : Path} {name : String} {target : Reference} {names rest : List String}
  {links depth : ℕ}

theorem realpath_cons (depth : ℕ) (cur : Path) (name : String) (rest : List String) :
    tree.realpath depth cur (name :: rest) =
      match tree.step cur name with
      | .into path => tree.realpath depth path rest
      | .follow target =>
        match depth with
        | 0 => none
        | depth' + 1 => (tree.realpath depth' (target.base cur) target.parts).bind fun path =>
          tree.realpath depth path rest
      | .missing => tree.realpath depth (cur ++ [name]) rest := by
  cases depth with
  | zero =>
    cases hstep : tree.step cur name with
    | into path => simp only [realpath, realWith, hstep]
    | follow target => simp only [realpath, realWith, hstep]
    | missing => simp only [realpath, realWith, hstep]
  | succ depth =>
    cases hstep : tree.step cur name with
    | into path => simp only [realpath, realWith, hstep]
    | follow target =>
      simp only [realpath, realWith, hstep]
      cases tree.realpath depth (target.base cur) target.parts with
      | none => rfl
      | some path => rfl
    | missing => simp only [realpath, realWith, hstep]

theorem realpath_nil (depth : ℕ) (cur : Path) : tree.realpath depth cur [] = some cur := by
  cases depth with
  | zero => rfl
  | succ depth => rfl

theorem realpath_eq_of_leads (h : Leads tree links cur names path) (hreal : tree.realpath depth cur names = some path') :
    path' = path := by
  induction depth generalizing links cur names path path' with
  | zero =>
    induction h with
    | here links cur => exact (Option.some.inj hreal).symm
    | into _ hstep _ ih =>
      rw [realpath_cons, hstep] at hreal
      exact ih hreal
    | follow _ hstep _ _ =>
      rw [realpath_cons, hstep] at hreal
      cases hreal
  | succ depth ihDepth =>
    induction names generalizing links cur with
    | nil =>
      cases h
      exact (Option.some.inj hreal).symm
    | cons name rest ih =>
      cases h with
      | into _ hstep hfound =>
        rw [realpath_cons, hstep] at hreal
        exact ih hfound hreal
      | follow _ hstep hfound =>
        rw [realpath_cons, hstep] at hreal
        obtain ⟨middle, hmiddle, hrest⟩ := Option.bind_eq_some_iff.mp hreal
        obtain ⟨middle', htarget, hfound⟩ := hfound.split
        rw [ihDepth htarget hmiddle] at hrest
        exact ih hfound hrest

theorem plain_append : tree.Plain cur (names ++ rest) ↔ tree.Plain cur names ∧ tree.Plain (cur ++ names) rest := by
  induction names generalizing cur with
  | nil => simp [Plain]
  | cons name names ih => simp only [List.cons_append, Plain, ih, List.append_assoc, List.nil_append, and_assoc]

theorem step_ordinary (h : Ordinary name) : tree.step cur name =
    match tree.node (cur ++ [name]) with
    | none => .missing
    | some (.link target) => .follow target
    | some _ => .into (cur ++ [name]) := by
  obtain ⟨hempty, hsame, hup⟩ := h
  simp only [step, hempty, hsame, hup, or_self, if_false]

theorem step_ordinary_into {next : Path} (hordinary : Ordinary name) (h : tree.step cur name = .into next) :
    next = cur ++ [name] ∧ ∀ target, tree.node (cur ++ [name]) ≠ some (.link target) := by
  rw [step_ordinary hordinary] at h
  cases hnode : tree.node (cur ++ [name]) with
  | none => simp [hnode] at h
  | some node =>
    cases node with
    | link target => simp [hnode] at h
    | directory =>
      simp only [hnode, Step.into.injEq] at h
      exact ⟨h.symm, by simp⟩
    | file data =>
      simp only [hnode, Step.into.injEq] at h
      exact ⟨h.symm, by simp⟩
    | special =>
      simp only [hnode, Step.into.injEq] at h
      exact ⟨h.symm, by simp⟩

theorem realpath_of_plain (h : tree.Plain cur names) : tree.realpath depth cur names = some (cur ++ names) := by
  induction names generalizing cur with
  | nil => rw [realpath_nil, List.append_nil]
  | cons name rest ih =>
    obtain ⟨hordinary, hlink, hrest⟩ := h
    have hnext := ih hrest
    rw [List.append_assoc, List.singleton_append] at hnext
    rw [realpath_cons, step_ordinary hordinary]
    cases hnode : tree.node (cur ++ [name]) with
    | none => exact hnext
    | some node =>
      cases node with
      | link target => exact absurd hnode (hlink target)
      | directory => exact hnext
      | file data => exact hnext
      | special => exact hnext

theorem eq_append_of_leads (h : Leads tree links cur names path) (hplain : tree.Plain cur names) :
    path = cur ++ names := by
  have hreal : tree.realpath 0 cur names = some (cur ++ names) := realpath_of_plain hplain
  exact (realpath_eq_of_leads h hreal).symm

theorem plain_dropLast (h : tree.Plain [] cur) : tree.Plain [] cur.dropLast := by
  cases List.eq_nil_or_concat cur with
  | inl hnil =>
    subst hnil
    exact h
  | inr hconcat =>
    obtain ⟨front, last, hcur⟩ := hconcat
    subst hcur
    rw [List.concat_eq_append] at h ⊢
    rw [List.dropLast_concat]
    exact (plain_append.mp h).1

theorem plain_concat (h : tree.Plain [] cur) (hordinary : Ordinary name)
    (hlink : ∀ target, tree.node (cur ++ [name]) ≠ some (.link target)) : tree.Plain [] (cur ++ [name]) :=
  plain_append.mpr ⟨h, hordinary, hlink, trivial⟩

theorem step_cases (tree : FileTree α) (cur : Path) (name : String) :
    tree.step cur name = .into cur ∨ tree.step cur name = .into cur.dropLast ∨
      Ordinary name ∧
        ((tree.step cur name = .missing ∧ tree.node (cur ++ [name]) = none) ∨
          (∃ target, tree.step cur name = .follow target) ∨
          (tree.step cur name = .into (cur ++ [name]) ∧
            ∀ target, tree.node (cur ++ [name]) ≠ some (.link target))) := by
  by_cases hsame : name = "" ∨ name = "."
  · simp [step, hsame]
  · by_cases hup : name = ".."
    · simp [step, hup]
    · have hordinary : Ordinary name := ⟨fun h => hsame (.inl h), fun h => hsame (.inr h), hup⟩
      refine .inr (.inr ⟨hordinary, ?_⟩)
      rw [step_ordinary hordinary]
      cases tree.node (cur ++ [name]) with
      | none => simp
      | some node =>
        cases node with
        | link target => simp
        | directory => simp
        | file data => simp
        | special => simp

theorem leads_of_plain (h : tree.Plain [] path) (hnode : (tree.node path).isSome) : Leads tree 0 [] path path := by
  induction path using List.reverseRecOn with
  | nil => exact .here 0 []
  | append_singleton front name ih =>
    obtain ⟨hfront, hordinary, hlink, _⟩ := plain_append.mp h
    have hdirectory : tree.node front = some .directory := by
      have hroot := tree.rooted (front ++ [name]) (Dict.get?_isSome_iff.mp hnode) (by simp)
      rwa [List.dropLast_concat] at hroot
    have hstep : tree.step front name = .into (front ++ [name]) := by
      rw [step_ordinary hordinary]
      cases hlast : tree.node (front ++ [name]) with
      | none => simp [hlast] at hnode
      | some last =>
        cases last with
        | link target => exact absurd hlast (hlink target)
        | directory => rfl
        | file data => rfl
        | special => rfl
    have hlast : Leads tree 0 front [name] (front ++ [name]) :=
      .into (isDirectory_iff.mpr hdirectory) hstep (.here 0 (front ++ [name]))
    exact (ih hfront (by simp [hdirectory])).append hlast

theorem plain_base {target : Reference} (h : tree.Plain [] cur) : tree.Plain [] (target.base cur) := by
  simp only [Reference.base]
  split_ifs
  · trivial
  · exact h

theorem plain_realWith {expand : Path → List String → Option Path}
    (hexpand : ∀ cur names path, expand cur names = some path → tree.Plain [] cur → tree.Plain [] path)
    (h : tree.realWith expand cur names = some path) (hcur : tree.Plain [] cur) : tree.Plain [] path := by
  induction names generalizing cur with
  | nil => exact Option.some.inj h ▸ hcur
  | cons name rest ih =>
    simp only [realWith] at h
    obtain hstep | hstep | ⟨hordinary, hstep⟩ := step_cases tree cur name
    · rw [hstep] at h
      exact ih h hcur
    · rw [hstep] at h
      exact ih h (plain_dropLast hcur)
    · obtain ⟨hstep, hnode⟩ | ⟨target, hstep⟩ | ⟨hstep, hlink⟩ := hstep
      · rw [hstep] at h
        exact ih h (plain_concat hcur hordinary (by simp [hnode]))
      · rw [hstep] at h
        cases hmiddle : expand (target.base cur) target.parts with
        | none => simp [hmiddle] at h
        | some middle =>
          simp only [hmiddle] at h
          exact ih h (hexpand _ _ _ hmiddle (plain_base hcur))
      · rw [hstep] at h
        exact ih h (plain_concat hcur hordinary hlink)

theorem plain_realpath (h : tree.realpath depth cur names = some path) (hcur : tree.Plain [] cur) :
    tree.Plain [] path := by
  induction depth generalizing cur names path with
  | zero => exact plain_realWith (fun _ _ _ hnone => by cases hnone) h hcur
  | succ depth ih => exact plain_realWith (fun _ _ _ hexpand => ih hexpand) h hcur

end Canonical

end FileTree

end TradingBot.Library.Paths
