import IncidentEvidence.Py.Except
import IncidentEvidence.Py.Sorted
import IncidentEvidence.Py.Str
import Mathlib.Algebra.Order.BigOperators.Group.List
import Mathlib.Algebra.Order.Ring.Nat

/-! # Case discovery

    `evaluation/rcaeval/discovery.py`: a loop over a stack of directories, which looks at the
    entries of each in the order of their names and pushes the subdirectories in reverse.
    The loop is the depth-first traversal `visit` (`discoverCases_eq_visit`), with the same
    result or the same error. -/

namespace IncidentEvidence

open Py

namespace Discovery

/-! ### Directory trees -/

/-- What a name in a directory stands for, when links are not followed. -/
inductive Node where
  | file
  | symlink (target : Str)
  | special
  /-- a directory whose listing raises `OSError` -/
  | unreadable
  /-- a directory, in the order in which the operating system lists it -/
  | directory (entries : List (Str × Node))

abbrev Listing := List (Str × Node)

/-- `entry.is_file(follow_symlinks=False)`. -/
def Node.isFile : Node → Bool
  | file => true
  | _ => false

/-- `entry.is_dir(follow_symlinks=False)`. -/
def Node.isDir : Node → Bool
  | unreadable | directory _ => true
  | _ => false

/-- `os.scandir`; `none` is `OSError`. -/
def Node.scandir : Node → Option Listing
  | directory entries => some entries
  | _ => none

/-- What is not a directory cannot be scanned. -/
theorem Node.scandir_leaf {node : Node} (h : ∀ entries, node ≠ .directory entries) :
    node.scandir = none := by
  cases node with
  | directory entries => exact absurd rfl (h entries)
  | _ => rfl

/-- Induction on a tree: a directory comes after everything in it. -/
theorem Node.induction {motive : Node → Prop}
    (leaf : ∀ node, (∀ entries, node ≠ .directory entries) → motive node)
    (directory : ∀ entries : Listing, (∀ entry ∈ entries, motive entry.2) →
      motive (.directory entries)) : ∀ node, motive node
  | .directory entries => directory entries fun entry _ =>
      Node.induction leaf directory entry.2
  | .file => leaf _ (by simp)
  | .symlink _ => leaf _ (by simp)
  | .special => leaf _ (by simp)
  | .unreadable => leaf _ (by simp)
termination_by node => sizeOf node
decreasing_by
  obtain ⟨name, node⟩ := entry
  have hmem : (name, node) ∈ entries := ‹_›
  have hentry := List.sizeOf_lt_of_mem hmem
  simp only [Prod.mk.sizeOf_spec, Node.directory.sizeOf_spec] at hentry ⊢
  omega

/-- The names from the root of the scan down to a directory. -/
abbrev Path := List Str

/-- The root of a scan: its name and the name of its parent. -/
structure Root where
  parentName : Str
  name : Str

/-- `directory.name`. -/
def Root.nameOf (root : Root) (path : Path) : Str := path.getLastD root.name

/-- `directory.parent.name`. -/
def Root.parentNameOf (root : Root) (path : Path) : Str :=
  if path = [] then root.parentName else root.nameOf path.dropLast

/-- `directory.relative_to(root).as_posix()`. -/
def relativePosix (path : Path) : Str :=
  if path = [] then str "." else (str "/").intercalate path

/-! ### The scan -/

/-- The codes of `errors.py` that discovery raises. -/
inductive ErrorCode where
  | invalidRoot
  | scanLimitExceeded
  | caseLimitExceeded
  | missingInjectionTime
  | unsupportedCaseLayout
  deriving DecidableEq

/-- The limits of `limits.py` that discovery reads. -/
structure Limits where
  maxDiscoveredCases : ℕ
  maxScannedEntries : ℕ
  positive : 1 ≤ maxDiscoveredCases ∧ 1 ≤ maxScannedEntries

def Limits.default : Limits := ⟨512, 100000, by decide⟩

/-- `discovery.DiscoveredCase`, with its paths below the root. -/
structure Case where
  directory : Path
  metricFile : Path
  injectionFile : Path
  sourceLocator : Str
  rootCauseService : Str
  injectedFaultType : Str
  repetition : Str
  deriving DecidableEq

/-- `_layout`. -/
def layout (root : Root) (path : Path) : Except ErrorCode (Str × Str × Str) :=
  match (root.parentNameOf path).splitOn (.scalar '_') with
  | [service, fault] =>
    if service = [] ∨ fault = [] ∨ root.nameOf path = [] then .error .unsupportedCaseLayout
    else .ok (service, fault, root.nameOf path)
  | _ => .error .unsupportedCaseLayout

/-- `regular_names`. -/
def regularNames (entries : Listing) : List Str :=
  (entries.filter fun entry => entry.2.isFile).map Prod.fst

/-- `selected`. -/
def selected (entries : Listing) : Option Str :=
  if str "data.csv" ∈ regularNames entries then some (str "data.csv")
  else if str "simple_metrics.csv" ∈ regularNames entries then some (str "simple_metrics.csv")
  else none

/-- What the loop has counted and found. -/
structure Scan where
  scanned : ℕ
  discovered : List Case
  deriving DecidableEq

variable (limits : Limits) (root : Root)

/-- One turn of the loop: the directory is scanned, and the children to push are returned. -/
def scanDirectory (path : Path) (node : Node) (scan : Scan) :
    Except ErrorCode (Scan × List (Path × Node)) := do
  let listing ← orRaise node.scandir .invalidRoot
  let entries := sortedOn Prod.fst listing
  let scanned := scan.scanned + entries.length
  if limits.maxScannedEntries < scanned then .error .scanLimitExceeded
  else
    match selected entries with
    | some metricName =>
      if str "inject_time.txt" ∉ regularNames entries then .error .missingInjectionTime
      else
        let (service, fault, repetition) ← layout root path
        let discovered := scan.discovered ++ [{
          directory := path
          metricFile := path ++ [metricName]
          injectionFile := path ++ [str "inject_time.txt"]
          sourceLocator := relativePosix path
          rootCauseService := service
          injectedFaultType := fault
          repetition := repetition }]
        if limits.maxDiscoveredCases < discovered.length then .error .caseLimitExceeded
        else return (⟨scanned, discovered⟩, [])
    | none =>
      let children := entries.filter fun entry => entry.2.isDir
      return (⟨scanned, scan.discovered⟩, children.map fun (name, node) => (path ++ [name], node))

/-- The number of nodes of a tree. -/
def Node.size : Node → ℕ
  | directory entries => 1 + (entries.map fun entry => entry.2.size).sum
  | _ => 1
termination_by node => sizeOf node
decreasing_by
  obtain ⟨name, node⟩ := entry
  have hentry := List.sizeOf_lt_of_mem ‹(name, node) ∈ entries›
  simp only [Prod.mk.sizeOf_spec, Node.directory.sizeOf_spec] at hentry ⊢
  omega

variable {limits root}

/-- The children of a directory are smaller than the directory. -/
theorem size_children {path : Path} {node : Node} {scan scan' : Scan}
    {children : List (Path × Node)}
    (h : scanDirectory limits root path node scan = .ok (scan', children)) :
    (children.map fun child => child.2.size).sum < node.size := by
  -- a case directory has no children, and every node counts
  have hpositive : ∀ n : Node, 0 < n.size := by
    intro n
    cases n with
    | directory entries =>
      rw [Node.size]
      omega
    | _ => simp [Node.size]
  unfold scanDirectory at h
  simp only [bind_eq_ok, orRaise_eq_ok] at h
  obtain ⟨listing, hlisting, h⟩ := h
  by_cases hlimit : limits.maxScannedEntries < scan.scanned + (sortedOn Prod.fst listing).length
  · simp [hlimit] at h
  rw [if_neg hlimit] at h
  cases hselected : selected (sortedOn Prod.fst listing) with
  | some metricName =>
    have hnone : children = [] := by
      simp only [hselected] at h
      split at h
      · simp at h
      · simp only [bind_eq_ok] at h
        obtain ⟨labels, -, h⟩ := h
        split at h
        · simp at h
        · exact (Prod.mk.inj (pure_eq_ok.mp h)).2
    rw [hnone]
    exact hpositive node
  | none =>
    simp only [hselected, pure_eq_ok, Prod.mk.injEq] at h
    obtain ⟨-, rfl⟩ := h
    cases node with
    | directory entries =>
      obtain rfl : entries = listing := by simpa [Node.scandir] using hlisting
      rw [List.map_map, Node.size]
      -- the children are some of the entries
      have hsub : (((sortedOn Prod.fst entries).filter fun entry => entry.2.isDir).map
          fun entry => entry.2.size).Sublist
            ((sortedOn Prod.fst entries).map fun entry => entry.2.size) :=
        List.filter_sublist.map _
      have hperm : ((sortedOn Prod.fst entries).map fun entry => entry.2.size).sum =
          (entries.map fun entry => entry.2.size).sum :=
        ((perm_sortedOn Prod.fst entries).map _).sum_eq
      have hle := hsub.sum_le_sum fun n _ => Nat.zero_le n
      show (((sortedOn Prod.fst entries).filter fun entry => entry.2.isDir).map
        fun entry => entry.2.size).sum < _
      omega
    | _ => simp [Node.scandir] at hlisting

variable (limits root)

/-- The loop of `discover_cases`, over the stack whose top is its last element. -/
def scanLoop (pending : List (Path × Node)) (scan : Scan) : Except ErrorCode Scan :=
  match _hlast : pending.getLast? with
  | none => .ok scan
  | some (path, node) =>
    match _hturn : scanDirectory limits root path node scan with
    | .error e => .error e
    | .ok (scan, children) => scanLoop (pending.dropLast ++ children.reverse) scan
termination_by (pending.map fun d => d.2.size).sum
decreasing_by
  obtain ⟨rest, rfl⟩ := List.getLast?_eq_some_iff.mp _hlast
  have hsize := size_children _hturn
  have hreverse : (children.reverse.map fun child => child.2.size).sum =
      (children.map fun child => child.2.size).sum :=
    (children.reverse_perm.map _).sum_eq
  rw [List.dropLast_concat, List.map_append, List.sum_append, hreverse, List.map_append,
    List.sum_append]
  show _ < _ + (node.size + 0)
  omega

/-- `discover_cases`. -/
def discoverCases (tree : Node) : Except ErrorCode (List Case) :=
  (scanLoop limits root [([], tree)] ⟨0, []⟩).map (·.discovered)

/-! ### The traversal -/

/-- A regular file of that name is in the directory. -/
def HoldsFile (entries : Listing) (name : Str) : Prop :=
  ∃ entry ∈ entries, entry.1 = name ∧ entry.2.isFile = true

instance (entries : Listing) (name : Str) : Decidable (HoldsFile entries name) :=
  inferInstanceAs (Decidable (∃ _ ∈ _, _))

/-- The directory is a case: it holds a regular metric file. -/
def IsCase (entries : Listing) : Prop :=
  HoldsFile entries (str "data.csv") ∨ HoldsFile entries (str "simple_metrics.csv")

instance (entries : Listing) : Decidable (IsCase entries) := inferInstanceAs (Decidable (_ ∨ _))

/-- The real subdirectories, in increasing order of their names. -/
def subdirectories (entries : Listing) : Listing :=
  (sortedOn Prod.fst entries).filter fun entry => entry.2.isDir

/-- The case in a directory, with a regular injection time and a valid label. -/
def readCase (path : Path) (entries : Listing) : Except ErrorCode Case := do
  require (HoldsFile entries (str "inject_time.txt")) .missingInjectionTime
  let (service, fault, repetition) ← layout root path
  return {
    directory := path
    metricFile := path ++
      [if HoldsFile entries (str "data.csv") then str "data.csv" else str "simple_metrics.csv"]
    injectionFile := path ++ [str "inject_time.txt"]
    sourceLocator := relativePosix path
    rootCauseService := service
    injectedFaultType := fault
    repetition := repetition }

/-- The depth-first traversal: a directory is counted, then it is a case, or its
    subdirectories are visited in the order of their names. -/
def visit (path : Path) (node : Node) (scan : Scan) : Except ErrorCode Scan :=
  match node with
  | .directory entries =>
    if limits.maxScannedEntries < scan.scanned + entries.length then .error .scanLimitExceeded
    else if IsCase entries then do
      let found ← readCase root path entries
      if limits.maxDiscoveredCases < scan.discovered.length + 1 then .error .caseLimitExceeded
      else return ⟨scan.scanned + entries.length, scan.discovered ++ [found]⟩
    else
      (subdirectories entries).attach.foldlM
        (fun scan child => visit (path ++ [child.1.1]) child.1.2 scan)
        ⟨scan.scanned + entries.length, scan.discovered⟩
  | _ => .error .invalidRoot
termination_by sizeOf node
decreasing_by
  obtain ⟨⟨name, node⟩, hchild⟩ := child
  have hentry := List.sizeOf_lt_of_mem (mem_sortedOn.mp (List.mem_filter.mp hchild).1)
  simp only [Prod.mk.sizeOf_spec, Node.directory.sizeOf_spec] at hentry ⊢
  omega

variable {limits root}

/-! ### The loop is the traversal -/

theorem mem_regularNames {entries : Listing} {name : Str} :
    name ∈ regularNames (sortedOn Prod.fst entries) ↔ HoldsFile entries name := by
  unfold regularNames HoldsFile
  simp only [List.mem_map, List.mem_filter, mem_sortedOn]
  constructor
  · intro h
    obtain ⟨entry, ⟨hentry, hfile⟩, hname⟩ := h
    exact ⟨entry, hentry, hname, hfile⟩
  · intro h
    obtain ⟨entry, hentry, hname, hfile⟩ := h
    exact ⟨entry, ⟨hentry, hfile⟩, hname⟩

theorem selected_of_case {entries : Listing} (h : IsCase entries) :
    selected (sortedOn Prod.fst entries) =
      some (if HoldsFile entries (str "data.csv") then str "data.csv"
        else str "simple_metrics.csv") := by
  unfold selected
  simp only [mem_regularNames]
  by_cases hdata : HoldsFile entries (str "data.csv")
  · rw [if_pos hdata, if_pos hdata]
  · have hsimple : HoldsFile entries (str "simple_metrics.csv") := h.resolve_left hdata
    rw [if_neg hdata, if_pos hsimple, if_neg hdata]

theorem selected_of_not_case {entries : Listing} (h : ¬ IsCase entries) :
    selected (sortedOn Prod.fst entries) = none := by
  obtain ⟨hdata, hsimple⟩ := not_or.mp h
  unfold selected
  simp only [mem_regularNames]
  rw [if_neg hdata, if_neg hsimple]

section directory
variable (path : Path) (entries : Listing) (scan : Scan)

theorem visit_directory :
    visit limits root path (.directory entries) scan =
      if limits.maxScannedEntries < scan.scanned + entries.length then .error .scanLimitExceeded
      else if IsCase entries then
        readCase root path entries >>= fun found =>
          if limits.maxDiscoveredCases < scan.discovered.length + 1 then .error .caseLimitExceeded
          else pure ⟨scan.scanned + entries.length, scan.discovered ++ [found]⟩
      else
        (subdirectories entries).foldlM
          (fun scan child => visit limits root (path ++ [child.1]) child.2 scan)
          ⟨scan.scanned + entries.length, scan.discovered⟩ := by
  have hattach : ∀ scan,
      (subdirectories entries).attach.foldlM
          (fun scan child => visit limits root (path ++ [child.1.1]) child.1.2 scan) scan =
        (subdirectories entries).foldlM
          (fun scan child => visit limits root (path ++ [child.1]) child.2 scan) scan := by
    intro scan
    rw [List.foldlM_subtype (g := fun scan child =>
      visit limits root (path ++ [child.1]) child.2 scan) fun _ _ _ => rfl, List.unattach_attach]
  rw [visit, hattach]

/-- A turn at a directory, told as the traversal tells it. -/
theorem scanDirectory_directory :
    scanDirectory limits root path (.directory entries) scan =
      if limits.maxScannedEntries < scan.scanned + entries.length then .error .scanLimitExceeded
      else if IsCase entries then
        readCase root path entries >>= fun found =>
          if limits.maxDiscoveredCases < scan.discovered.length + 1 then .error .caseLimitExceeded
          else pure (⟨scan.scanned + entries.length, scan.discovered ++ [found]⟩, [])
      else
        pure (⟨scan.scanned + entries.length, scan.discovered⟩,
          (subdirectories entries).map fun child => (path ++ [child.1], child.2)) := by
  have hlength : (sortedOn Prod.fst entries).length = entries.length := length_sortedBy _ _
  show (if limits.maxScannedEntries < scan.scanned + (sortedOn Prod.fst entries).length then _
    else _) = _
  rw [hlength]
  by_cases hlimit : limits.maxScannedEntries < scan.scanned + entries.length
  · rw [if_pos hlimit, if_pos hlimit]
  rw [if_neg hlimit, if_neg hlimit]
  by_cases hcase : IsCase entries
  · rw [if_pos hcase, selected_of_case hcase]
    unfold readCase
    by_cases htime : HoldsFile entries (str "inject_time.txt")
    · simp only [mem_regularNames, htime, not_true_eq_false, if_false, require, if_true]
      cases layout root path with
      | error e => rfl
      | ok labels =>
        show (if limits.maxDiscoveredCases < (scan.discovered ++ [_]).length then _ else _) = _
        rw [List.length_append]
        rfl
    · simp only [mem_regularNames, htime, not_false_eq_true, if_true, require, if_false]
      rfl
  · rw [if_neg hcase, selected_of_not_case hcase]
    rfl

end directory

/-- A visit is a turn of the loop, followed by the visits of the children. -/
theorem visit_eq_turn (path : Path) (node : Node) (scan : Scan) :
    visit limits root path node scan =
      scanDirectory limits root path node scan >>= fun turn =>
        turn.2.foldlM (fun scan child => visit limits root child.1 child.2 scan) turn.1 := by
  cases node with
  | directory entries =>
    rw [visit_directory, scanDirectory_directory]
    by_cases hlimit : limits.maxScannedEntries < scan.scanned + entries.length
    · rw [if_pos hlimit, if_pos hlimit]
      rfl
    rw [if_neg hlimit, if_neg hlimit]
    by_cases hcase : IsCase entries
    · rw [if_pos hcase, if_pos hcase]
      cases readCase root path entries with
      | error e => rfl
      | ok found =>
        show (if _ then _ else _) = (if _ then _ else _) >>= _
        by_cases hfound : limits.maxDiscoveredCases < scan.discovered.length + 1
        · rw [if_pos hfound, if_pos hfound]
          rfl
        · rw [if_neg hfound, if_neg hfound]
          rfl
    · rw [if_neg hcase, if_neg hcase]
      show _ = ((subdirectories entries).map _).foldlM _ _
      rw [List.foldlM_map]
  | _ => rw [visit] <;> simp [scanDirectory, Node.scandir, orRaise, bind, Except.bind]

/-- The loop visits what is on its stack from the top to the bottom. -/
theorem scanLoop_eq_visits (pending : List (Path × Node)) (scan : Scan) :
    scanLoop limits root pending scan =
      pending.reverse.foldlM (fun scan d => visit limits root d.1 d.2 scan) scan := by
  fun_induction scanLoop limits root pending scan with
  | case1 pending scan hempty =>
    rw [List.getLast?_eq_none_iff.mp hempty]
    rfl
  | case2 pending scan path node hlast e hturn =>
    obtain ⟨rest, rfl⟩ := List.getLast?_eq_some_iff.mp hlast
    rw [List.reverse_append, List.reverse_singleton, List.singleton_append, List.foldlM_cons,
      visit_eq_turn, hturn]
    rfl
  | case3 pending scan path node hlast scan' children hturn ih =>
    obtain ⟨rest, rfl⟩ := List.getLast?_eq_some_iff.mp hlast
    -- the children were pushed in reverse: the first of them is on top
    rw [ih, List.dropLast_concat, List.reverse_append, List.reverse_reverse, List.foldlM_append,
      List.reverse_append, List.reverse_singleton, List.singleton_append, List.foldlM_cons,
      visit_eq_turn, hturn]
    rfl

/-- **The loop is the traversal**, with the same result or the same error. -/
theorem discoverCases_eq_visit (tree : Node) :
    discoverCases limits root tree =
      (visit limits root [] tree ⟨0, []⟩).map (·.discovered) := by
  unfold discoverCases
  rw [scanLoop_eq_visits, List.reverse_singleton, List.foldlM_cons]
  cases visit limits root [] tree ⟨0, []⟩ with
  | error e => rfl
  | ok scan => rfl

end Discovery

end IncidentEvidence
