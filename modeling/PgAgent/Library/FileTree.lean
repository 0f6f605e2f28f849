import Mathlib.Data.List.AList
import Mathlib.Data.List.Induction

/-!
# Files, directories and symbolic links

A tree maps the places that are named without any symbolic link (`RealPath`) to what is there. A
path as a program spells it may have `.`, `..` and symbolic links in it; `canonicalize` walks it
through the tree to the place it names.

* `canonicalize_canonicalize` --- the place that a path names has a path of its own, which names it;
* `createNew`, `write`, `renameFile`, `removeFile` --- the operations on files, each with what it
  changes.

The tree carries that everything in it is in a directory, and that the files have numbers of their
own: a file that is put in the place of another one is a different file, even with the same bytes.
-/

namespace Unix

/-! ## Paths -/

abbrev Name := String

inductive Component
  | curDir
  | parentDir
  | normal (name : Name)
  deriving DecidableEq, Repr

/-- A path as it is spelled, without empty components and without `.` behind the first. -/
structure Path where
  absolute : Bool
  components : List Component
  deriving DecidableEq, Repr

/-- A place in the tree: the names on the way from the root. -/
abbrev RealPath := List Name

namespace Path

def ofReal (p : RealPath) : Path := ⟨true, p.map Component.normal⟩

/-- The path of a name alone. -/
def ofName (n : Name) : Path := ⟨false, [.normal n]⟩

/-- The path that a text spells. -/
def ofText (text : List Char) : Path :=
  let parts := (text.splitOnP fun c => c == '/').filter fun part => part ≠ []
  let components : List Component := parts.map fun part =>
    if part = ['.'] then .curDir
    else if part = ['.', '.'] then .parentDir
    else .normal (String.ofList part)
  if text.head? = some '/' then ⟨true, components.filter fun c => c ≠ .curDir⟩
  else ⟨false, components.take 1 ++ (components.drop 1).filter fun c => c ≠ .curDir⟩

/-- A text without a slash that is not one of the dots spells a name. -/
theorem ofText_name {text : List Char} (hne : text ≠ []) (hdot : text ≠ ['.'])
    (hdots : text ≠ ['.', '.']) (hslash : '/' ∉ text) :
    ofText text = ofName (String.ofList text) := by
  have hhead : text.head? ≠ some '/' := fun h => hslash (List.mem_of_mem_head? h)
  have hparts : text.splitOnP (fun c => c == '/') = [text] := by
    refine List.splitOnP_eq_singleton fun c hc => ?_
    rw [beq_eq_false_iff_ne]
    rintro rfl
    exact hslash hc
  unfold ofText ofName
  simp only [hparts, List.filter_cons, hne, decide_true, if_true, List.filter_nil, List.map_cons,
    List.map_nil, hdot, hdots, if_false, hhead, ne_eq, not_false_eq_true, List.take_succ_cons,
    List.take_zero, List.drop_succ_cons, List.drop_zero, List.append_nil]

/-- The last name of a text is the path's last name, however the directory in front is spelled. -/
theorem getLast?_ofText_append {name : List Char} (hne : name ≠ []) (hdot : name ≠ ['.'])
    (hdots : name ≠ ['.', '.']) (hslash : '/' ∉ name) (dir : List Char) :
    (ofText (dir ++ '/' :: name)).components.getLast? = some (.normal (String.ofList name)) := by
  have hname : name.splitOnP (fun c => c == '/') = [name] := by
    refine List.splitOnP_eq_singleton fun c hc => ?_
    rw [beq_eq_false_iff_ne]
    rintro rfl
    exact hslash hc
  have hsplit : (dir ++ '/' :: name).splitOnP (fun c => c == '/') =
      dir.splitOnP (fun c => c == '/') ++ [name] := by
    rw [List.splitOnP_append_cons dir name (by decide), hname]
  unfold ofText
  simp only [hsplit, List.filter_append, List.filter_cons, hne, List.filter_nil, List.map_append,
    List.map_cons, List.map_nil, hdot, hdots, ne_eq, not_false_eq_true, decide_true, if_true,
    if_false]
  generalize ((dir.splitOnP fun c => c == '/').filter fun part => decide ¬part = []).map
    (fun part => if part = ['.'] then Component.curDir else if part = ['.', '.'] then
      Component.parentDir else .normal (String.ofList part)) = front
  have hkeep : (decide ¬Component.normal (String.ofList name) = Component.curDir) = true := rfl
  split
  · exact List.getLast?_concat
  · cases front with
    | nil => rfl
    | cons c front =>
      rw [List.cons_append, List.drop_succ_cons, List.drop_zero, List.filter_append,
        List.filter_cons, if_pos hkeep, List.filter_nil, ← List.append_assoc]
      exact List.getLast?_concat

/-- `Path::join`. -/
def join (p q : Path) : Path :=
  if q.absolute then q
  else if p.absolute ∨ p.components ≠ [] then
    ⟨p.absolute, p.components ++ q.components.filter fun c => c ≠ .curDir⟩
  else q

/-- `Path::parent`. -/
def parent (p : Path) : Option Path :=
  if p.components = [] then none else some ⟨p.absolute, p.components.dropLast⟩

/-- `Path::file_name`. -/
def fileName (p : Path) : Option Name :=
  match p.components.getLast? with
  | some (.normal n) => some n
  | _ => none

theorem fileName_eq_some_iff {p : Path} {n : Name} :
    p.fileName = some n ↔ p.components.getLast? = some (.normal n) := by
  unfold fileName
  split
  · next m hlast => rw [hlast, Option.some.injEq, Option.some.injEq, Component.normal.injEq]
  · next hno =>
    constructor
    · intro h
      cases h
    · intro h
      exact absurd h (hno n)

theorem fileName_ofText_append {name : List Char} (hne : name ≠ []) (hdot : name ≠ ['.'])
    (hdots : name ≠ ['.', '.']) (hslash : '/' ∉ name) (dir : List Char) :
    (ofText (dir ++ '/' :: name)).fileName = some (String.ofList name) :=
  fileName_eq_some_iff.mpr (getLast?_ofText_append hne hdot hdots hslash dir)

/-- The components of a name in a directory. -/
theorem components_join_ofName (p : Path) (n : Name) :
    (p.join (ofName n)).components = p.components ++ [.normal n] := by
  unfold join
  rw [if_neg (show ¬ (ofName n).absolute = true from Bool.false_ne_true)]
  split
  · rfl
  · next h =>
    rw [not_or, not_not] at h
    rw [h.2]
    rfl

theorem fileName_join_ofName (p : Path) (n : Name) : (p.join (ofName n)).fileName = some n := by
  rw [fileName_eq_some_iff, components_join_ofName, List.getLast?_concat]

/-- A name joined to a directory spells both of them out. -/
theorem join_ofName (p : Path) (n : Name) :
    p.join (ofName n) = ⟨p.absolute, p.components ++ [.normal n]⟩ := by
  unfold join
  rw [if_neg (show ¬ (ofName n).absolute = true from Bool.false_ne_true)]
  split
  · rfl
  · next h =>
    rw [not_or, not_not, Bool.not_eq_true] at h
    rw [h.1, h.2]
    rfl

/-- A path is its directory and the name in it. -/
theorem eq_of_parent_fileName {p d : Path} {n : Name} (hparent : p.parent = some d)
    (hname : p.fileName = some n) : p = ⟨d.absolute, d.components ++ [.normal n]⟩ := by
  unfold parent at hparent
  split at hparent
  · cases hparent
  · obtain rfl := Option.some.inj hparent
    rw [fileName_eq_some_iff] at hname
    rw [List.dropLast_append_getLast? _ hname]

end Path

/-! ## Trees -/

inductive Node
  | dir
  | file (ino : ℕ) (bytes : List UInt8)
  | symlink (target : Path)
  deriving DecidableEq, Repr

structure FileTree where
  nodes : AList fun _ : RealPath => Node
  root_dir : nodes.lookup [] = some .dir
  parent_dir : ∀ (p : RealPath) (n : Name), nodes.lookup (p ++ [n]) ≠ none →
    nodes.lookup p = some .dir
  /-- The number of the next file. -/
  next : ℕ
  fresh : ∀ (p : RealPath) (ino : ℕ) (bytes : List UInt8),
    nodes.lookup p = some (.file ino bytes) → ino < next

namespace FileTree

def node (fs : FileTree) (p : RealPath) : Option Node := fs.nodes.lookup p

theorem dir_of_file (fs : FileTree) {d : RealPath} {n : Name} {ino : ℕ} {bytes : List UInt8}
    (h : fs.node (d ++ [n]) = some (.file ino bytes)) : fs.node d = some .dir :=
  fs.parent_dir d n fun hnone => Option.some_ne_none _ (h.symm.trans hnone)

theorem ino_lt_next (fs : FileTree) {p : RealPath} {ino : ℕ} {bytes : List UInt8}
    (h : fs.node p = some (.file ino bytes)) : ino < fs.next := fs.fresh p ino bytes h

/-- All nodes are in directories, and all files have numbers below the next one. -/
def wellFormed (nodes : AList fun _ : RealPath => Node) (next : ℕ) : Bool :=
  nodes.lookup [] == some .dir &&
    nodes.entries.all fun e =>
      (e.1 == [] || nodes.lookup e.1.dropLast == some .dir) &&
        match e.2 with
        | .file ino _ => decide (ino < next)
        | _ => true

/-- The tree of nodes that have been checked. -/
def ofNodes (nodes : AList fun _ : RealPath => Node) (next : ℕ)
    (h : wellFormed nodes next = true) :
    FileTree where
  nodes
  root_dir := by
    rw [wellFormed, Bool.and_eq_true, beq_iff_eq] at h
    exact h.1
  parent_dir p n hmem := by
    rw [wellFormed, Bool.and_eq_true, List.all_eq_true] at h
    obtain ⟨v, hv⟩ := Option.ne_none_iff_exists'.mp hmem
    have hcheck := h.2 _ (AList.mem_lookup_iff.mp hv)
    have hdir : nodes.lookup (p ++ [n]).dropLast = some .dir := by
      simpa using (Bool.and_eq_true_iff.mp hcheck).1
    rwa [List.dropLast_concat] at hdir
  next
  fresh p ino bytes hv := by
    rw [wellFormed, Bool.and_eq_true, List.all_eq_true] at h
    have hcheck := h.2 _ (AList.mem_lookup_iff.mp hv)
    simpa using (Bool.and_eq_true_iff.mp hcheck).2

/-- The names in a directory. -/
def names (fs : FileTree) (d : RealPath) : List Name :=
  fs.nodes.keys.filterMap fun p => if p.dropLast = d then p.getLast? else none

/-! ## The place that a path names -/

/-- The walk along a path from a place; what is behind a symbolic link is left to `follow`. -/
def walk (fs : FileTree) (follow : RealPath → List Component → Option RealPath) :
    RealPath → List Component → Option RealPath
  | cur, [] => some cur
  | cur, .curDir :: rest => walk fs follow cur rest
  | cur, .parentDir :: rest => walk fs follow cur.dropLast rest
  | cur, .normal n :: rest =>
    match fs.node (cur ++ [n]) with
    | some .dir => walk fs follow (cur ++ [n]) rest
    | some (.file _ _) => if rest = [] then some (cur ++ [n]) else none
    | some (.symlink target) =>
      follow (if target.absolute then [] else cur) (target.components ++ rest)
    | none => none

/-- The walk with so many symbolic links at most. -/
def resolve (fs : FileTree) : ℕ → RealPath → List Component → Option RealPath
  | 0 => fs.walk fun _ _ => none
  | links + 1 => fs.walk (fs.resolve links)

/-- `MAXSYMLINKS`. -/
def maxSymlinks : ℕ := 40

/-- `realpath(3)`, in a process with a working directory. -/
def canonicalize (fs : FileTree) (cwd : RealPath) (p : Path) : Option RealPath :=
  if p.absolute then fs.resolve maxSymlinks [] p.components
  else if p.components = [] then none
  else fs.resolve maxSymlinks cwd p.components

/-- What is read from the file that a path names. -/
def readFile (fs : FileTree) (cwd : RealPath) (p : Path) : Option (List UInt8) :=
  (fs.canonicalize cwd p).bind fun r =>
    match fs.node r with
    | some (.file _ bytes) => some bytes
    | _ => none

/-- The names in the directory that a path names. -/
def readDir (fs : FileTree) (cwd : RealPath) (p : Path) : Option (List Name) :=
  (fs.canonicalize cwd p).bind fun r => if fs.node r = some .dir then some (fs.names r) else none

section Walk

variable {fs : FileTree}

theorem node_append_dir {p q : RealPath} (hq : q ≠ []) (h : fs.node (p ++ q) ≠ none) :
    fs.node p = some .dir := by
  induction q using List.reverseRecOn with
  | nil => exact absurd rfl hq
  | append_singleton q n ih =>
    have hparent : fs.node (p ++ q) = some .dir := by
      rw [← List.append_assoc] at h
      exact fs.parent_dir (p ++ q) n h
    by_cases hq' : q = []
    · rwa [hq', List.append_nil] at hparent
    · exact ih hq' (by rw [hparent]; exact Option.some_ne_none _)

/-- There is a file or a directory at a place. -/
def IsReal (fs : FileTree) (p : RealPath) : Prop :=
  fs.node p = some .dir ∨ ∃ ino bytes, fs.node p = some (.file ino bytes)

theorem IsReal.ne_none {p : RealPath} (h : IsReal fs p) : fs.node p ≠ none := by
  rcases h with h | ⟨ino, bytes, h⟩
  · rw [h]
    exact Option.some_ne_none _
  · rw [h]
    exact Option.some_ne_none _

theorem walk_real {follow : RealPath → List Component → Option RealPath} {cur q : RealPath}
    (h : IsReal fs (cur ++ q)) :
    fs.walk follow cur (q.map Component.normal) = some (cur ++ q) := by
  induction q generalizing cur with
  | nil => rw [List.append_nil, List.map_nil, walk]
  | cons n q ih =>
    have happend : cur ++ n :: q = cur ++ [n] ++ q := by
      rw [List.append_assoc, List.singleton_append]
    rw [happend] at h ⊢
    rw [List.map_cons, walk]
    by_cases hq : q = []
    · subst hq
      rw [List.append_nil] at h ⊢
      rcases h with h | ⟨ino, bytes, h⟩
      · rw [h]
        rfl
      · rw [h]
        exact if_pos rfl
    · rw [node_append_dir hq h.ne_none]
      exact ih h

/-- The path of a place without links names that place. -/
theorem canonicalize_real {cwd p : RealPath} (h : IsReal fs p) :
    fs.canonicalize cwd (Path.ofReal p) = some p := by
  have hwalk : ∀ links, fs.resolve links [] (p.map Component.normal) = some p := by
    intro links
    cases links <;> exact walk_real h
  have habsolute : (Path.ofReal p).absolute = true := rfl
  unfold canonicalize
  rw [if_pos habsolute]
  exact hwalk maxSymlinks

/-- The path of a directory without links names that directory. -/
theorem canonicalize_ofReal {cwd p : RealPath} (h : fs.node p = some .dir) :
    fs.canonicalize cwd (Path.ofReal p) = some p := canonicalize_real (Or.inl h)

theorem node_dropLast {p : RealPath} (h : fs.node p = some .dir) :
    fs.node p.dropLast = some .dir := by
  rcases List.eq_nil_or_concat p with rfl | ⟨q, n, rfl⟩
  · exact h
  · rw [List.concat_eq_append] at h ⊢
    rw [List.dropLast_concat]
    exact fs.parent_dir q n (by rw [← node, h]; exact Option.some_ne_none _)

theorem isReal_of_walk {follow : RealPath → List Component → Option RealPath}
    (hfollow : ∀ cur cs r, fs.node cur = some .dir → follow cur cs = some r → IsReal fs r)
    {cur r : RealPath} {cs : List Component} (hcur : fs.node cur = some .dir)
    (h : fs.walk follow cur cs = some r) : IsReal fs r := by
  induction cs generalizing cur with
  | nil =>
    obtain rfl := Option.some.inj h
    exact Or.inl hcur
  | cons c cs ih =>
    cases c with
    | curDir => exact ih hcur h
    | parentDir => exact ih (node_dropLast hcur) h
    | normal n =>
      rw [walk] at h
      split at h
      · next hdir => exact ih hdir h
      · next ino bytes hfile =>
        split at h
        · obtain rfl := Option.some.inj h
          exact Or.inr ⟨ino, bytes, hfile⟩
        · cases h
      · refine hfollow _ _ r ?_ h
        split
        · exact fs.root_dir
        · exact hcur
      · cases h

theorem isReal_of_resolve {links : ℕ} {cur r : RealPath} {cs : List Component}
    (hcur : fs.node cur = some .dir) (h : fs.resolve links cur cs = some r) : IsReal fs r := by
  induction links generalizing cur r cs with
  | zero =>
    refine isReal_of_walk (fun _ _ _ _ hnone => ?_) hcur h
    cases hnone
  | succ links ih => exact isReal_of_walk (fun _ _ _ hdir => ih hdir) hcur h

/-- The place that a path names has a path of its own, which names it. -/
theorem canonicalize_canonicalize {cwd r : RealPath} {p : Path} (hcwd : fs.node cwd = some .dir)
    (h : fs.canonicalize cwd p = some r) : fs.canonicalize cwd (Path.ofReal r) = some r := by
  refine canonicalize_real ?_
  unfold canonicalize at h
  split at h
  · exact isReal_of_resolve fs.root_dir h
  · split at h
    · cases h
    · exact isReal_of_resolve hcwd h

end Walk

/-! ## The operations on files -/

inductive IoError
  | notFound
  | notADirectory
  | isADirectory
  | alreadyExists
  | other (message : String)
  deriving DecidableEq, Repr

/-- A file is put at a place that is no directory. -/
def put (fs : FileTree) (d : RealPath) (n : Name) (ino : ℕ) (bytes : List UInt8) (next : ℕ)
    (hdir : fs.node d = some .dir) (hold : fs.node (d ++ [n]) ≠ some .dir) (hino : ino < next)
    (hnext : fs.next ≤ next) : FileTree where
  nodes := fs.nodes.insert (d ++ [n]) (.file ino bytes)
  root_dir := by
    rw [AList.lookup_insert_ne (by simp)]
    exact fs.root_dir
  parent_dir p m h := by
    by_cases hp : p = d ++ [n]
    · -- there is nothing below a place that is no directory
      subst hp
      rw [AList.lookup_insert_ne (by simp)] at h
      exact absurd (fs.parent_dir _ _ h) hold
    · rw [AList.lookup_insert_ne hp]
      by_cases hpm : p ++ [m] = d ++ [n]
      · rw [(List.append_inj' hpm rfl).1]
        exact hdir
      · rw [AList.lookup_insert_ne hpm] at h
        exact fs.parent_dir p m h
  next
  fresh p i bs h := by
    by_cases hp : p = d ++ [n]
    · subst hp
      rw [AList.lookup_insert] at h
      obtain ⟨rfl, -⟩ := Node.file.inj (Option.some.inj h)
      exact hino
    · rw [AList.lookup_insert_ne hp] at h
      exact lt_of_lt_of_le (fs.fresh p i bs h) hnext

/-- What is at a place that is no directory is taken away. -/
def drop (fs : FileTree) (p : RealPath) (hold : fs.node p ≠ some .dir) : FileTree where
  nodes := fs.nodes.erase p
  root_dir := by
    have hp : [] ≠ p := by
      rintro rfl
      exact hold fs.root_dir
    rw [AList.lookup_erase_ne hp]
    exact fs.root_dir
  parent_dir q m h := by
    have hqm : q ++ [m] ≠ p := by
      rintro rfl
      exact h (AList.lookup_erase _ _)
    rw [AList.lookup_erase_ne hqm] at h
    have hq : q ≠ p := by
      rintro rfl
      exact hold (fs.parent_dir _ _ h)
    rw [AList.lookup_erase_ne hq]
    exact fs.parent_dir q m h
  next := fs.next
  fresh q i bs h := by
    by_cases hq : q = p
    · subst hq
      rw [AList.lookup_erase] at h
      cases h
    · rw [AList.lookup_erase_ne hq] at h
      exact fs.fresh q i bs h

/-- `open` with `O_CREAT | O_EXCL`. -/
def createNew (fs : FileTree) (d : RealPath) (n : Name) : Except IoError FileTree :=
  if hdir : fs.node d = some .dir then
    if hfree : fs.node (d ++ [n]) = none then
      .ok (fs.put d n fs.next [] (fs.next + 1) hdir (by rw [hfree]; exact nofun)
        (Nat.lt_succ_self _) (Nat.le_succ _))
    else .error .alreadyExists
  else .error .notADirectory

/-- What a file holds is replaced; there is nothing to write to at a place that is no file. -/
def write (fs : FileTree) (d : RealPath) (n : Name) (bytes : List UInt8) : FileTree :=
  match h : fs.node (d ++ [n]) with
  | some (.file ino _) =>
    fs.put d n ino bytes fs.next (fs.dir_of_file h) (by rw [h]; exact nofun)
      (fs.ino_lt_next h) le_rfl
  | _ => fs

/-- `unlink`. -/
def removeFile (fs : FileTree) (p : RealPath) : Except IoError FileTree :=
  if hdir : fs.node p = some .dir then .error .isADirectory
  else if fs.node p = none then .error .notFound
  else .ok (fs.drop p hdir)

/-- `rename` of a file, within its directory; a file or a link that has the new name is replaced. -/
def renameFile (fs : FileTree) (d : RealPath) (a b : Name) : Except IoError FileTree :=
  match h : fs.node (d ++ [a]) with
  | some (.file ino bytes) =>
    if hdir : fs.node (d ++ [b]) = some .dir then .error .isADirectory
    else
      let moved := fs.put d b ino bytes fs.next (fs.dir_of_file h) hdir (fs.ino_lt_next h) le_rfl
      if a = b then .ok moved else moved.removeFile (d ++ [a])
  | _ => .error .notFound

section Operations

variable {fs fs' : FileTree} {d p q : RealPath} {n : Name}

@[simp] theorem node_put {ino next : ℕ} {bytes : List UInt8} {hdir : fs.node d = some .dir}
    {hold : fs.node (d ++ [n]) ≠ some .dir} {hino : ino < next} {hnext : fs.next ≤ next} :
    (fs.put d n ino bytes next hdir hold hino hnext).node q =
      if q = d ++ [n] then some (.file ino bytes) else fs.node q := by
  unfold node put
  split
  · next h => rw [h, AList.lookup_insert]
  · next h => rw [AList.lookup_insert_ne h]

@[simp] theorem node_drop {hold : fs.node p ≠ some .dir} :
    (fs.drop p hold).node q = if q = p then none else fs.node q := by
  unfold node drop
  split
  · next h => rw [h, AList.lookup_erase]
  · next h => rw [AList.lookup_erase_ne h]

/-- A new file is put where nothing was, and nothing else changes. -/
theorem node_createNew (h : fs.createNew d n = .ok fs') :
    fs.node d = some .dir ∧ fs.node (d ++ [n]) = none ∧
      ∀ q, fs'.node q = if q = d ++ [n] then some (.file fs.next []) else fs.node q := by
  unfold createNew at h
  split at h
  · next hdir =>
    split at h
    · next hfree =>
      obtain rfl := Except.ok.inj h
      exact ⟨hdir, hfree, fun q => node_put⟩
    · cases h
  · cases h

theorem exists_createNew (hdir : fs.node d = some .dir) (hfree : fs.node (d ++ [n]) = none) :
    ∃ fs', fs.createNew d n = .ok fs' := by
  unfold createNew
  rw [dif_pos hdir, dif_pos hfree]
  exact ⟨_, rfl⟩

theorem node_write {ino : ℕ} {old : List UInt8} (h : fs.node (d ++ [n]) = some (.file ino old))
    (bytes : List UInt8) (q : RealPath) :
    (fs.write d n bytes).node q = if q = d ++ [n] then some (.file ino bytes) else fs.node q := by
  unfold write
  split
  · next ino' old' h' =>
    obtain ⟨rfl, -⟩ := Node.file.inj (Option.some.inj (h.symm.trans h'))
    exact node_put
  · next hno => exact absurd h (hno ino old)

theorem node_removeFile (h : fs.removeFile p = .ok fs') (q : RealPath) :
    fs'.node q = if q = p then none else fs.node q := by
  unfold removeFile at h
  split at h
  · cases h
  · split at h
    · cases h
    · obtain rfl := Except.ok.inj h
      exact node_drop

theorem exists_removeFile {ino : ℕ} {bytes : List UInt8}
    (h : fs.node p = some (.file ino bytes)) :
    ∃ fs', fs.removeFile p = .ok fs' := by
  unfold removeFile
  rw [dif_neg (by rw [h]; exact nofun), if_neg (by rw [h]; exact nofun)]
  exact ⟨_, rfl⟩

/-- A file is moved unless a directory has the new name. -/
theorem renameFile_cases {a b : Name} {ino : ℕ} {bytes : List UInt8} (hne : a ≠ b)
    (h : fs.node (d ++ [a]) = some (.file ino bytes)) :
    fs.node (d ++ [b]) = some .dir ∧ fs.renameFile d a b = .error .isADirectory ∨
      fs.node (d ++ [b]) ≠ some .dir ∧ ∃ fs', fs.renameFile d a b = .ok fs' ∧
        ∀ q, fs'.node q = if q = d ++ [a] then none
          else if q = d ++ [b] then some (.file ino bytes) else fs.node q := by
  have hplace : d ++ [a] ≠ d ++ [b] := by
    intro heq
    exact hne (List.cons.inj (List.append_cancel_left heq)).1
  unfold renameFile
  split
  · next ino' bytes' h' =>
    obtain ⟨rfl, rfl⟩ := Node.file.inj (Option.some.inj (h.symm.trans h'))
    split
    · next hdir => exact Or.inl ⟨hdir, rfl⟩
    · next hdir =>
      refine Or.inr ⟨hdir, ?_⟩
      have hmoved : (fs.put d b ino bytes fs.next (fs.dir_of_file h) hdir (fs.ino_lt_next h)
          le_rfl).node (d ++ [a]) = some (.file ino bytes) := by
        rw [node_put, if_neg hplace, h]
      obtain ⟨fs', hfs'⟩ := exists_removeFile hmoved
      refine ⟨fs', hfs', fun q => ?_⟩
      rw [node_removeFile hfs', node_put]
  · next hno => exact absurd h (hno ino bytes)

end Operations

end FileTree

end Unix
