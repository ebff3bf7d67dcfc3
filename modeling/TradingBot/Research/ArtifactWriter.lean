import TradingBot.Research.Artifacts

namespace TradingBot.Research.ArtifactWriter

open Library.Dictionary Research.Artifacts

/-- Where `shutil.move` puts the work directory: under the given path, or inside the directory it finds there. -/
inductive Target
  | final | inside
deriving DecidableEq, Repr

/-- How far a writer is. Between two phases the process may be interrupted or die. -/
inductive Phase
  | fresh
  | writing
  | sealed
  | checked
  | resolved (target : Target)
  | copying (target : Target) (remaining : List RelPath)
  | moved
  | returned
  | raised
  | crashed
deriving DecidableEq, Repr

/-- A writer with its temporary directory. `sealed` keeps the file set that `finalize` sealed, and is read by no
step. -/
structure Writer where
  workName : String
  crossDevice : Bool
  phase : Phase := .fresh
  work : Tree := {}
  sealed : Option Tree := none
deriving DecidableEq, Repr

inductive Action
  | enter
  | write (rel : RelPath) (content : Content)
  | writeSeal
  | check
  | resolve
  | move
  | copyPartly (rel : RelPath) (content : Content)
  | copy (rel : RelPath)
  | copied
  | finish
  | crash
deriving DecidableEq, Repr

/-- The files of the work directory in a subdirectory of the tree. -/
def placeInside (name : String) (work tree : Tree) : Tree :=
  work.entries.foldl (fun tree e => tree.set (name :: e.1) e.2) tree

def destination (w : Writer) : Target → RelPath → RelPath
  | .final, rel => rel
  | .inside, rel => w.workName :: rel

/-- `os.path.isdir(dst)`, and then `os.path.exists(real_dst)`. -/
def resolveTarget (final : Option Tree) (w : Writer) : Phase :=
  match final with
  | none => .resolved .final
  | some tree => if tree.keys.any (·.head? = some w.workName) then .raised else .resolved .inside

/-- `os.rename`, which replaces a directory only if it is empty. Across filesystems it fails, and `copytree`
begins with a new directory. -/
def moveTo (final : Option Tree) (w : Writer) : Target → Option Tree × Writer
  | .final =>
    match final with
    | none =>
      if w.crossDevice then (some {}, { w with phase := .copying .final w.work.keys })
      else (some w.work, { w with phase := .moved })
    | some tree =>
      if w.crossDevice ∨ tree.entries ≠ [] then (some tree, { w with phase := .raised })
      else (some w.work, { w with phase := .moved })
  | .inside =>
    if w.crossDevice then (final, { w with phase := .copying .inside w.work.keys })
    else (some (placeInside w.workName w.work (final.getD {})), { w with phase := .moved })

variable (sha256 : Content → String)

def sealedTree (work : Tree) : Tree := work.set checksumsJson (.checksums (checksumsForDir sha256 work))

/-- One step of a writer, with the final directory as the step finds it and as the step leaves it. -/
def act (final : Option Tree) (w : Writer) : Action → Option (Option Tree × Writer)
  | .enter =>
    if w.phase = .fresh then
      some (final, { w with phase := if final.isSome then .raised else .writing })
    else none
  | .write rel content =>
    if w.phase = .writing ∧ rel ≠ [] then some (final, { w with work := w.work.set rel content }) else none
  | .writeSeal =>
    if w.phase = .writing then
      some (final, { w with
        phase := .sealed, work := sealedTree sha256 w.work, sealed := some (sealedTree sha256 w.work) })
    else none
  | .check =>
    if w.phase = .sealed then
      some (final, { w with phase := if final.isSome then .raised else .checked })
    else none
  | .resolve =>
    if w.phase = .checked then some (final, { w with phase := resolveTarget final w }) else none
  | .move =>
    match w.phase with
    | .resolved target => some (moveTo final w target)
    | _ => none
  | .copyPartly rel content =>
    match w.phase with
    | .copying target remaining =>
      if rel ∈ remaining then some (some ((final.getD {}).set (destination w target rel) content), w) else none
    | _ => none
  | .copy rel =>
    match w.phase with
    | .copying target remaining =>
      if rel ∈ remaining then
        (w.work.get? rel).map fun content =>
          (some ((final.getD {}).set (destination w target rel) content),
            { w with phase := .copying target (remaining.erase rel) })
      else none
    | _ => none
  | .copied =>
    match w.phase with
    | .copying _ [] => some (final, { w with phase := .moved })
    | _ => none
  | .finish => if w.phase = .moved then some (final, { w with phase := .returned }) else none
  | .crash =>
    if w.phase ∈ [.returned, .raised, .crashed] then none else some (final, { w with phase := .crashed })

structure State (ι : Type) where
  final : Option Tree
  writers : ι → Writer

variable {ι : Type} [DecidableEq ι]

def step (s : State ι) (e : ι × Action) : Option (State ι) :=
  (act sha256 s.final (s.writers e.1) e.2).map fun r => ⟨r.1, Function.update s.writers e.1 r.2⟩

/-- Writers before they enter, under the names and on the filesystems of their temporary directories. -/
def start (workName : ι → String) (crossDevice : ι → Bool) : State ι where
  final := none
  writers i := { workName := workName i, crossDevice := crossDevice i }

variable {sha256 : Content → String} {work tree : Tree} {name : String} {rel : RelPath}

theorem checksumsForDir_congr {tree tree' : Tree}
    (h : tree.entries.filter (fun e => pathName e.1 ≠ "checksums.json") =
      tree'.entries.filter fun e => pathName e.1 ≠ "checksums.json") :
    checksumsForDir sha256 tree = checksumsForDir sha256 tree' := by
  unfold checksumsForDir
  simp only [h]

theorem filter_setEntry_checksums (c : Content) (es : List (RelPath × Content)) :
    (setEntry checksumsJson c es).filter (fun e => pathName e.1 ≠ "checksums.json") =
      es.filter fun e => pathName e.1 ≠ "checksums.json" := by
  induction es with
  | nil => rfl
  | cons e es ih =>
    by_cases he : e.1 = checksumsJson
    · have hname : pathName e.1 = "checksums.json" := by rw [he]; rfl
      simp only [setEntry, he, if_true]
      rw [List.filter_cons_of_neg (by simp [pathName, checksumsJson]),
        List.filter_cons_of_neg (by simp [hname])]
    · simp only [setEntry, he, if_false, List.filter_cons, ih]

theorem checksumsForDir_sealedTree :
    checksumsForDir sha256 (sealedTree sha256 work) = checksumsForDir sha256 work :=
  checksumsForDir_congr (filter_setEntry_checksums _ _)

theorem sealedTree_seal :
    (sealedTree sha256 work).get? checksumsJson =
      some (.checksums (checksumsForDir sha256 (sealedTree sha256 work))) := by
  rw [checksumsForDir_sealedTree]
  exact Dict.get?_set_self

theorem mem_keys_set {d : Tree} {k : RelPath} {c : Content} : rel ∈ (d.set k c).keys ↔ rel = k ∨ rel ∈ d.keys := by
  by_cases hk : k ∈ d.keys
  · rw [Dict.keys_set_of_mem hk]
    constructor
    · exact .inr
    · rintro (rfl | h)
      · exact hk
      · exact h
  · rw [Dict.keys_set_of_not_mem hk, List.mem_append, List.mem_singleton, or_comm]

theorem foldl_placeInside_keys (es : List (RelPath × Content)) (tree : Tree) :
    rel ∈ (es.foldl (fun tree e => tree.set (name :: e.1) e.2) tree).keys ↔
      rel ∈ tree.keys ∨ ∃ e ∈ es, rel = name :: e.1 := by
  induction es generalizing tree with
  | nil => simp
  | cons e es ih =>
    rw [List.foldl_cons, ih, mem_keys_set]
    simp only [List.mem_cons, exists_eq_or_imp]
    tauto

theorem placeInside_keys :
    rel ∈ (placeInside name work tree).keys ↔ rel ∈ tree.keys ∨ ∃ rel' ∈ work.keys, rel = name :: rel' := by
  rw [placeInside, foldl_placeInside_keys]
  simp [Dict.keys]

theorem foldl_placeInside_get? (hrel : rel.head? ≠ some name) (es : List (RelPath × Content)) (tree : Tree) :
    (es.foldl (fun tree e => tree.set (name :: e.1) e.2) tree).get? rel = tree.get? rel := by
  induction es generalizing tree with
  | nil => rfl
  | cons e es ih =>
    rw [List.foldl_cons, ih, Dict.get?_set_of_ne]
    rintro rfl
    exact hrel rfl

theorem placeInside_get? (hrel : rel.head? ≠ some name) :
    (placeInside name work tree).get? rel = tree.get? rel :=
  foldl_placeInside_get? hrel _ _

end TradingBot.Research.ArtifactWriter
