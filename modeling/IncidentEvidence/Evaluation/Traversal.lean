import IncidentEvidence.Evaluation.Discovery
import Mathlib.Data.List.Forall2

/-! # The order of a traversal

    Which directories discovery visits, in which order, and that neither depends on the order
    in which the operating system lists a directory (`discovery_is_depth_first`). -/

namespace IncidentEvidence

open Py

namespace Discovery

/-! ### The directories that are visited -/

/-- The directories of a traversal, in the order in which they are visited. -/
def visited (path : Path) (node : Node) : List (Path × Node) :=
  (path, node) ::
    match node with
    | .directory entries =>
      if IsCase entries then []
      else
        (subdirectories entries).attach.flatMap fun child =>
          visited (path ++ [child.1.1]) child.1.2
    | _ => []
termination_by sizeOf node
decreasing_by
  obtain ⟨⟨name, node⟩, hchild⟩ := child
  have hentry := List.sizeOf_lt_of_mem (mem_sortedOn.mp (List.mem_filter.mp hchild).1)
  simp only [Prod.mk.sizeOf_spec, Node.directory.sizeOf_spec] at hentry ⊢
  omega

/-- What a visit does with the directory itself. -/
def look (limits : Limits) (root : Root) (path : Path) (node : Node) (scan : Scan) :
    Except ErrorCode Scan :=
  (scanDirectory limits root path node scan).map Prod.fst

/-- The directory is reached from the node through directories that are not cases; a link is
    no directory. -/
inductive Reached : Node → Path → Node → Prop where
  | here (node : Node) : Reached node [] node
  | inside {entries : Listing} {name : Str} {child node : Node} {path : Path} :
      ¬ IsCase entries → (name, child) ∈ entries → child.isDir = true →
      Reached child path node → Reached (.directory entries) (name :: path) node

theorem visited_case {path : Path} {entries : Listing} (h : IsCase entries) :
    visited path (.directory entries) = [(path, .directory entries)] := by
  rw [visited]
  exact congrArg _ (if_pos h)

theorem visited_directory {path : Path} {entries : Listing} (h : ¬ IsCase entries) :
    visited path (.directory entries) = (path, .directory entries) ::
      (subdirectories entries).flatMap fun child => visited (path ++ [child.1]) child.2 := by
  have hattach : ((subdirectories entries).attach.flatMap fun child =>
      visited (path ++ [child.1.1]) child.1.2) =
        (subdirectories entries).flatMap fun child => visited (path ++ [child.1]) child.2 := by
    rw [List.flatMap_subtype (g := fun child => visited (path ++ [child.1]) child.2)
      fun _ _ => rfl, List.unattach_attach]
  rw [visited]
  show _ :: (if IsCase entries then [] else _) = _
  rw [if_neg h, hattach]

theorem visited_other {path : Path} {node : Node} (h : ∀ entries, node ≠ .directory entries) :
    visited path node = [(path, node)] := by
  cases node with
  | directory entries => exact absurd rfl (h entries)
  | _ => rw [visited.eq_def]

theorem mem_subdirectories {entries : Listing} {entry : Str × Node} :
    entry ∈ subdirectories entries ↔ entry ∈ entries ∧ entry.2.isDir = true := by
  unfold subdirectories
  rw [List.mem_filter, mem_sortedOn]

/-- **What is visited is what is reached.** -/
theorem mem_visited {base path : Path} {tree node : Node} :
    (path, node) ∈ visited base tree ↔ ∃ below, path = base ++ below ∧ Reached tree below node := by
  constructor
  · intro h
    induction tree using Node.induction generalizing base path with
    | leaf tree htree =>
      rw [visited_other htree, List.mem_singleton] at h
      obtain ⟨rfl, rfl⟩ := Prod.mk.inj h
      exact ⟨[], (List.append_nil _).symm, .here _⟩
    | directory entries ih =>
      by_cases hcase : IsCase entries
      · rw [visited_case hcase, List.mem_singleton] at h
        obtain ⟨rfl, rfl⟩ := Prod.mk.inj h
        exact ⟨[], (List.append_nil _).symm, .here _⟩
      · rw [visited_directory hcase, List.mem_cons] at h
        rcases h with h | h
        · obtain ⟨rfl, rfl⟩ := Prod.mk.inj h
          exact ⟨[], (List.append_nil _).symm, .here _⟩
        · obtain ⟨child, hchild, hvisited⟩ := List.mem_flatMap.mp h
          obtain ⟨hentry, hdir⟩ := mem_subdirectories.mp hchild
          -- inside a child: the path goes through its name
          obtain ⟨below, hpath, hreached⟩ := ih child hentry hvisited
          refine ⟨child.1 :: below, ?_, .inside hcase hentry hdir hreached⟩
          rw [hpath, List.append_assoc]
          rfl
  · intro h
    obtain ⟨below, rfl, hreached⟩ := h
    induction hreached generalizing base with
    | here node =>
      rw [visited.eq_def, List.append_nil]
      exact List.mem_cons_self
    | @inside entries name child node path hcase hentry hdir _ ih =>
      rw [visited_directory hcase]
      apply List.mem_cons_of_mem
      apply List.mem_flatMap.mpr
      refine ⟨(name, child), mem_subdirectories.mpr ⟨hentry, hdir⟩, ?_⟩
      have hpath : base ++ name :: path = base ++ [name] ++ path := by
        rw [List.append_assoc]
        rfl
      rw [hpath]
      exact ih

/-- Below the root, only real directories are visited. -/
theorem isDir_of_reached {tree node : Node} {path : Path} (h : Reached tree path node)
    (hpath : path ≠ []) : node.isDir = true := by
  induction h with
  | here node => exact absurd rfl hpath
  | @inside entries name child node path _ _ hdir hreached ih =>
    by_cases hlast : path = []
    · subst hlast
      cases hreached
      exact hdir
    · exact ih hlast

/-! ### A visit goes through the visited directories -/

/-- A loop over a `flatMap` is a loop of loops. -/
theorem foldlM_flatMap {α β σ ε : Type} (f : α → List β) (g : σ → β → Except ε σ) (l : List α)
    (s : σ) : (l.flatMap f).foldlM g s = l.foldlM (fun s a => (f a).foldlM g s) s := by
  induction l generalizing s with
  | nil => rfl
  | cons a l ih =>
    rw [List.flatMap_cons, List.foldlM_append, List.foldlM_cons]
    congr 1
    funext s'
    exact ih s'

/-- Two loops whose bodies agree on the elements agree. -/
theorem foldlM_congr_forall₂ {α β σ ε : Type} {R : α → β → Prop} {f : σ → α → Except ε σ}
    {g : σ → β → Except ε σ} {l : List α} {l' : List β} (h : List.Forall₂ R l l')
    (hR : ∀ a b, R a b → ∀ s, f s a = g s b) (s : σ) : l.foldlM f s = l'.foldlM g s := by
  induction h generalizing s with
  | nil => rfl
  | cons hab _ ih =>
    rw [List.foldlM_cons, List.foldlM_cons, hR _ _ hab]
    congr 1
    funext s'
    exact ih s'

section visits
variable {limits : Limits} {root : Root}

theorem visit_eq_looks (path : Path) (node : Node) (scan : Scan) :
    visit limits root path node scan =
      (visited path node).foldlM (fun scan d => look limits root d.1 d.2 scan) scan := by
  -- a directory without children to visit is one look
  have hlook : ∀ path node scan, (∀ turn, scanDirectory limits root path node scan = .ok turn →
      turn.2 = []) → visit limits root path node scan =
        [(path, node)].foldlM (fun scan d => look limits root d.1 d.2 scan) scan := by
    intro path node scan hchildren
    rw [visit_eq_turn, List.foldlM_cons]
    unfold look
    cases hturn : scanDirectory limits root path node scan with
    | error e => rfl
    | ok turn =>
      show turn.2.foldlM _ turn.1 = _
      rw [hchildren turn hturn]
      rfl
  induction node using Node.induction generalizing path scan with
  | leaf node hnode =>
    rw [visited_other hnode]
    apply hlook
    intro turn hturn
    simp [scanDirectory, Node.scandir_leaf hnode, orRaise, bind, Except.bind] at hturn
  | directory entries ih =>
    by_cases hcase : IsCase entries
    · rw [visited_case hcase]
      apply hlook
      intro turn hturn
      rw [scanDirectory_directory, if_pos hcase] at hturn
      split at hturn
      · simp at hturn
      · rw [bind_eq_ok] at hturn
        obtain ⟨found, -, hturn⟩ := hturn
        split at hturn
        · simp at hturn
        · obtain rfl := pure_eq_ok.mp hturn
          rfl
    · rw [visited_directory hcase, List.foldlM_cons, visit_directory]
      unfold look
      rw [scanDirectory_directory]
      by_cases hlimit : limits.maxScannedEntries < scan.scanned + entries.length
      · rw [if_pos hlimit, if_pos hlimit]
        rfl
      · rw [if_neg hlimit, if_neg hlimit, if_neg hcase, if_neg hcase]
        show _ = ((subdirectories entries).flatMap _).foldlM _ _
        -- the children in order, each by the induction hypothesis
        rw [foldlM_flatMap]
        have hsame : List.Forall₂ (fun a b => a = b ∧ a ∈ subdirectories entries)
            (subdirectories entries) (subdirectories entries) :=
          List.forall₂_same.mpr fun child hchild => ⟨rfl, hchild⟩
        apply foldlM_congr_forall₂ hsame
        intro child child' hchild scan
        obtain ⟨rfl, hmem⟩ := hchild
        exact ih child (mem_subdirectories.mp hmem).1 _ _

end visits

/-! ### Each directory once -/

/-- The names in every directory are distinct, as those of a file system are. -/
inductive Node.Distinct : Node → Prop where
  | leaf {node : Node} : (∀ entries, node ≠ .directory entries) → node.Distinct
  | directory {entries : Listing} : (entries.map Prod.fst).Nodup →
      (∀ entry ∈ entries, entry.2.Distinct) → (Node.directory entries).Distinct

theorem Node.Distinct.names {entries : Listing} (h : (Node.directory entries).Distinct) :
    (entries.map Prod.fst).Nodup := by
  cases h with
  | leaf hleaf => exact absurd rfl (hleaf entries)
  | directory hnames _ => exact hnames

theorem Node.Distinct.entries {entries : Listing} (h : (Node.directory entries).Distinct) :
    ∀ entry ∈ entries, entry.2.Distinct := by
  cases h with
  | leaf hleaf => exact absurd rfl (hleaf entries)
  | directory _ hentries => exact hentries

/-- No directory is visited twice. -/
theorem nodup_visited {tree : Node} (h : tree.Distinct) (base : Path) :
    ((visited base tree).map Prod.fst).Nodup := by
  induction tree using Node.induction generalizing base with
  | leaf tree htree =>
    rw [visited_other htree]
    exact List.nodup_singleton base
  | directory entries ih =>
    by_cases hcase : IsCase entries
    · rw [visited_case hcase]
      exact List.nodup_singleton base
    · rw [visited_directory hcase, List.map_cons, List.nodup_cons, List.map_flatMap]
      have hbelow : ∀ (child : Str × Node) (path : Path),
          path ∈ (visited (base ++ [child.1]) child.2).map Prod.fst →
            ∃ below, path = base ++ child.1 :: below := by
        intro child path hpath
        obtain ⟨⟨_, node⟩, hvisited, rfl⟩ := List.mem_map.mp hpath
        obtain ⟨below, hbelow, -⟩ := mem_visited.mp hvisited
        refine ⟨below, ?_⟩
        rw [hbelow, List.append_assoc]
        rfl
      constructor
      · -- a child's path is longer
        intro hmem
        obtain ⟨child, -, hpath⟩ := List.mem_flatMap.mp hmem
        obtain ⟨below, heq⟩ := hbelow child base hpath
        have hlength := congrArg List.length heq
        rw [List.length_append, List.length_cons] at hlength
        omega
      · rw [List.nodup_flatMap]
        constructor
        · intro child hchild
          have hentry := (mem_subdirectories.mp hchild).1
          exact ih child hentry (h.entries child hentry) _
        · -- the paths of two children part at their names
          have hnames : (subdirectories entries).Pairwise fun a b => a.1 < b.1 :=
            (strict_sortedOn h.names).filter _
          apply hnames.imp
          intro a b hab path ha hb
          obtain ⟨below, rfl⟩ := hbelow a path ha
          obtain ⟨below', heq⟩ := hbelow b _ hb
          have hname := (List.cons.inj (List.append_cancel_left heq)).1
          exact absurd hab (by rw [hname]; exact lt_irrefl _)

/-! ### Other listings of a tree -/

/-- The operating system lists some directories of the tree in another order. -/
inductive Relisted : Node → Node → Prop where
  | refl (node : Node) : Relisted node node
  | trans {a b c : Node} : Relisted a b → Relisted b c → Relisted a c
  | here {entries entries' : Listing} : entries.Perm entries' →
      Relisted (.directory entries) (.directory entries')
  | inside (before : Listing) (name : Str) {child child' : Node} (after : Listing) :
      Relisted child child' → Relisted (.directory (before ++ (name, child) :: after))
        (.directory (before ++ (name, child') :: after))

/-- A listing is of the same kind as another listing of the tree. -/
theorem Relisted.kind {node node' : Node} (h : Relisted node node') :
    node.isFile = node'.isFile ∧ node.isDir = node'.isDir := by
  induction h with
  | refl node => exact ⟨rfl, rfl⟩
  | trans _ _ ih ih' => exact ⟨ih.1.trans ih'.1, ih.2.trans ih'.2⟩
  | here _ => exact ⟨rfl, rfl⟩
  | inside _ _ _ _ _ => exact ⟨rfl, rfl⟩

theorem Relisted.distinct {node node' : Node} (h : Relisted node node') (hnode : node.Distinct) :
    node'.Distinct := by
  induction h with
  | refl node => exact hnode
  | trans _ _ ih ih' => exact ih' (ih hnode)
  | @here entries entries' hperm =>
    refine .directory ((hperm.map Prod.fst).nodup_iff.mp hnode.names) ?_
    intro entry hentry
    exact hnode.entries entry (hperm.mem_iff.mpr hentry)
  | @inside before name child child' after _ ih =>
    refine .directory ?_ ?_
    · have hnames := hnode.names
      rw [List.map_append, List.map_cons] at hnames ⊢
      exact hnames
    · intro entry hentry
      rcases List.mem_append.mp hentry with hbefore | hrest
      · exact hnode.entries entry (List.mem_append_left _ hbefore)
      · rcases List.mem_cons.mp hrest with rfl | hafter
        · exact ih (hnode.entries (name, child) (by simp))
        · exact hnode.entries entry (List.mem_append_right _ (List.mem_cons_of_mem _ hafter))

section relisted
variable {limits : Limits} {root : Root}

/-- The entries have one name, are of one kind and are visited alike. -/
def Alike (limits : Limits) (root : Root) (a b : Str × Node) : Prop :=
  a.1 = b.1 ∧ a.2.isFile = b.2.isFile ∧ a.2.isDir = b.2.isDir ∧
    ∀ path scan, visit limits root path a.2 scan = visit limits root path b.2 scan

theorem holdsFile_of_alike {entries entries' : Listing}
    (h : List.Forall₂ (Alike limits root) entries entries') (name : Str) :
    HoldsFile entries name ↔ HoldsFile entries' name := by
  unfold HoldsFile
  induction h with
  | nil => exact Iff.rfl
  | @cons a b _ _ hab _ ih =>
    obtain ⟨hname, hfile, -, -⟩ := hab
    simp only [List.mem_cons, or_and_right, exists_or, exists_eq_left, hname, hfile, ih]

theorem readCase_congr {entries entries' : Listing} (path : Path)
    (h : ∀ name, HoldsFile entries name ↔ HoldsFile entries' name) :
    readCase root path entries = readCase root path entries' := by
  unfold readCase
  simp only [h]

theorem isCase_congr {entries entries' : Listing}
    (h : ∀ name, HoldsFile entries name ↔ HoldsFile entries' name) :
    IsCase entries ↔ IsCase entries' := by
  unfold IsCase
  rw [h, h]

/-- Directories of one size, with the same files and children that are visited alike, are
    visited alike. -/
theorem visit_congr {entries entries' : Listing} {path : Path} {scan : Scan}
    (hlength : entries.length = entries'.length)
    (hfiles : ∀ name, HoldsFile entries name ↔ HoldsFile entries' name)
    (hchildren : List.Forall₂ (Alike limits root) (subdirectories entries)
      (subdirectories entries')) :
    visit limits root path (.directory entries) scan =
      visit limits root path (.directory entries') scan := by
  have hloop : ∀ scan, (subdirectories entries).foldlM
        (fun scan child => visit limits root (path ++ [child.1]) child.2 scan) scan =
      (subdirectories entries').foldlM
        (fun scan child => visit limits root (path ++ [child.1]) child.2 scan) scan := by
    apply foldlM_congr_forall₂ hchildren
    intro a b hab scan
    obtain ⟨hname, -, -, hvisit⟩ := hab
    rw [hname, hvisit]
  rw [visit_directory, visit_directory, hlength, readCase_congr path hfiles, hloop]
  simp only [isCase_congr hfiles]

theorem alike_refl (entries : Listing) : List.Forall₂ (Alike limits root) entries entries :=
  List.forall₂_same.mpr fun _ _ => ⟨rfl, rfl, rfl, fun _ _ => rfl⟩

/-- A traversal does not depend on the order of the listings. -/
theorem visit_relisted {tree tree' : Node} (h : Relisted tree tree') (hdistinct : tree.Distinct)
    (path : Path) (scan : Scan) :
    visit limits root path tree scan = visit limits root path tree' scan := by
  induction h generalizing path scan with
  | refl node => rfl
  | trans h _ ih ih' =>
    rw [ih hdistinct]
    exact ih' (h.distinct hdistinct) path scan
  | @here entries entries' hperm =>
    -- the names are distinct, so sorting undoes the order of the listing
    have hchildren : subdirectories entries = subdirectories entries' := by
      unfold subdirectories
      rw [sortedOn_eq_of_perm hperm hdistinct.names]
    apply visit_congr hperm.length_eq
    · intro name
      unfold HoldsFile
      simp only [hperm.mem_iff]
    · rw [hchildren]
      exact alike_refl _
  | @inside before name child child' after hchild ih =>
    have hdistinct' := hdistinct.entries (name, child) (by simp)
    obtain ⟨hfile, hdir⟩ := hchild.kind
    have hentry : Alike limits root (name, child) (name, child') :=
      ⟨rfl, hfile, hdir, fun path scan => ih hdistinct' path scan⟩
    have halike : List.Forall₂ (Alike limits root) (before ++ (name, child) :: after)
        (before ++ (name, child') :: after) :=
      List.rel_append (alike_refl before) (.cons hentry (alike_refl after))
    apply visit_congr halike.length_eq (holdsFile_of_alike halike)
    unfold subdirectories
    apply List.rel_filter
    · intro a b hab
      show a.2.isDir = true ↔ b.2.isDir = true
      rw [hab.2.2.1]
    · apply forall₂_sortedBy halike
      intro a _ a' _ b _ b' _ hab hab'
      rw [hab.1, hab'.1]

end relisted

/-- **Discovery is the sorted depth-first traversal.** The loop does what the recursion does,
    which looks at the visited directories in turn; they are those that are reached through
    real directories that are not cases, each of them once; and the order of the listings does
    not matter. -/
theorem discovery_is_depth_first (limits : Limits) (root : Root) (tree : Node) :
    discoverCases limits root tree =
        (visit limits root [] tree ⟨0, []⟩).map (·.discovered) ∧
      visit limits root [] tree ⟨0, []⟩ =
        (visited [] tree).foldlM (fun scan d => look limits root d.1 d.2 scan) ⟨0, []⟩ ∧
      (∀ path node, (path, node) ∈ visited [] tree ↔ Reached tree path node) ∧
      (∀ path node, (path, node) ∈ visited [] tree → path ≠ [] → node.isDir = true) ∧
      (tree.Distinct → ((visited [] tree).map Prod.fst).Nodup ∧
        ∀ tree', Relisted tree tree' →
          discoverCases limits root tree' = discoverCases limits root tree) := by
  have hreached : ∀ path node, (path, node) ∈ visited [] tree ↔ Reached tree path node := by
    intro path node
    rw [mem_visited]
    constructor
    · intro h
      obtain ⟨below, rfl, hbelow⟩ := h
      exact hbelow
    · intro h
      exact ⟨path, rfl, h⟩
  refine ⟨discoverCases_eq_visit tree, visit_eq_looks _ _ _, hreached, ?_, ?_⟩
  · intro path node hmem hpath
    exact isDir_of_reached ((hreached path node).mp hmem) hpath
  · intro hdistinct
    refine ⟨nodup_visited hdistinct [], ?_⟩
    intro tree' hrelisted
    rw [discoverCases_eq_visit, discoverCases_eq_visit, visit_relisted hrelisted hdistinct]

/-! ### A split with one case -/

namespace Demo

def replica : Node :=
  .directory [(str "inject_time.txt", .file), (str "data.csv", .file)]

def label : Str × Node := (str "cart_cpu", .directory [(str "1", replica)])

/-- A link to the root of the file system. -/
def link : Str × Node := (str "latest", .symlink (str "/"))

theorem distinct_split : (Node.directory [label, link]).Distinct := by
  have hfile : Node.file.Distinct := .leaf (by simp)
  have hlink : (Node.symlink (str "/")).Distinct := .leaf (by simp)
  have hreplica : replica.Distinct := .directory (by decide) (by simp [hfile])
  have hlabel : label.2.Distinct := .directory (by decide) (by simp [hreplica])
  exact .directory (by decide) (by simp [hlabel, link, hlink])

end Demo

/-- Listed in the other order, the split has the same case. -/
theorem discovery_is_depth_first_demo :
    ((visited [] (.directory [Demo.label, Demo.link])).map Prod.fst).Nodup ∧
      discoverCases .default ⟨[], str "RE2-OB"⟩ (.directory [Demo.link, Demo.label]) =
        discoverCases .default ⟨[], str "RE2-OB"⟩ (.directory [Demo.label, Demo.link]) := by
  obtain ⟨-, -, -, -, honce⟩ := discovery_is_depth_first .default ⟨[], str "RE2-OB"⟩
    (.directory [Demo.label, Demo.link])
  obtain ⟨hnodup, hlisting⟩ := honce Demo.distinct_split
  exact ⟨hnodup, hlisting _ (.here (.swap _ _ _))⟩

end Discovery

end IncidentEvidence
