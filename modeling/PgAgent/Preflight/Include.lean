import PgAgent.Library.FileTree
import PgAgent.Library.Utf8
import PgAgent.Library.Worklist
import PgAgent.Preflight.Directive
import Mathlib.Data.List.Sort

/-!
# The search for the include of the recovery file

A standby streams only if PostgreSQL reads the file that the agent writes, `myrecovery.conf` in the
data directory. The preflight searches `postgresql.conf` and what it includes for the directive that
pulls the file in, and says OK for an `include_if_exists` of it.

* `scanForRecoveryInclude` --- the search: a stack of files, the set of those seen, a budget;
* `pgReads` --- the files that PostgreSQL reads from the same root;
* `sameTarget_iff` --- the comparison of two targets, as a comparison of places;
* `scanLoop_spec` --- the search has visited everything that it found, or it has used up the budget;
* `scanDecides_of_plainConfig` --- on plain configurations the answer is the one PostgreSQL would
  give.

The search also reads the hidden files of a directory, which PostgreSQL leaves out, and it reads
lines that PostgreSQL rejects (`scanDecides_hidden`).
-/

namespace PgAgent
namespace Preflight

open Rust Postgres Unix

/-- The files of a node, as a process in some working directory sees them. -/
structure Files where
  fs : FileTree
  cwd : RealPath
  cwd_dir : fs.node cwd = some .dir

/-- `RECOVERY_CONF_FILE`. -/
def recoveryConfFile : Name := "myrecovery.conf"

/-- `INCLUDE_SCAN_MAX_FILES`. -/
def includeScanMaxFiles : ℕ := 128

/-- What the search found. -/
inductive IncludeHit
  | optional (inFile : Path)
  | required (inFile : Path)
  | elsewhere (inFile : Path) (raw : List Char) (resolved : Path)
  deriving DecidableEq, Repr

def IncludeHit.rank : IncludeHit → ℕ
  | optional _ => 3
  | required _ => 2
  | elsewhere _ _ _ => 1

variable (files : Files)

/-! ## The search -/

/-- `fs::read_to_string`. -/
def readToString (p : Path) : Option (List Char) := (files.fs.readFile files.cwd p).bind fromUtf8

/-- The directives of a file; none if it cannot be read. -/
def directives (file : Path) : List (IncludeKey × List Char) :=
  match readToString files file with
  | none => []
  | some text => (lines text).filterMap parseIncludeDirective

/-- The file that a directive means: what is not absolute is relative to the file it stands in. -/
def includeTarget (file : Path) (value : List Char) : Path :=
  let dir := file.parent.getD ⟨false, [.curDir]⟩
  if (Path.ofText value).absolute then Path.ofText value else dir.join (Path.ofText value)

/-- `p.extension() == Some("conf")`, of a name. -/
def hasConfExtension (n : Name) : Bool :=
  ".conf".toList.isSuffixOf n.toList && decide (n.toList ≠ ".conf".toList)

/-- The files of an `include_dir`, in order. -/
def confs (target : Path) : List Path :=
  match files.fs.readDir files.cwd target with
  | none => []
  | some names =>
    ((names.filter hasConfExtension).insertionSort fun a b => a ≤ b).map fun n =>
      target.join (Path.ofName n)

/-- What `same_target` compares. -/
def norm (p : Path) : Path :=
  let parent := p.parent.getD ⟨true, []⟩
  let parent :=
    match files.fs.canonicalize files.cwd parent with
    | some r => Path.ofReal r
    | none => parent
  match p.fileName with
  | some n => parent.join (Path.ofName n)
  | none => parent

def sameTarget (a b : Path) : Bool := decide (a = b) || decide (norm files a = norm files b)

variable (want : Path)

/-- What an `include` or `include_if_exists` of a file named like the recovery file is. -/
def includeHit (file : Path) (optional : Bool) (value : List Char) : IncludeHit :=
  let target := includeTarget file value
  if sameTarget files target want then
    if optional then .optional file else .required file
  else .elsewhere file value target

/-- The best outcome wins, and the first of equals. -/
def better (best : Option IncludeHit) (hit : IncludeHit) : Option IncludeHit :=
  match best with
  | none => some hit
  | some b => if b.rank < hit.rank then some hit else some b

/-- What one directive does to the best hit and to the stack, the top of which comes first. -/
def scanDirective (file : Path) (s : Option IncludeHit × List Path) (d : IncludeKey × List Char) :
    Option IncludeHit × List Path :=
  let target := includeTarget file d.2
  match d.1 with
  | .dir => (s.1, (confs files target).reverse ++ s.2)
  | key =>
    if target.fileName = some recoveryConfFile then
      (better s.1 (includeHit files want file (key = .ifExists) d.2), s.2)
    else (s.1, target :: s.2)

def scanFile (file : Path) (s : Option IncludeHit × List Path) : Option IncludeHit × List Path :=
  (directives files file).foldl (scanDirective files want file) s

/-- The loop. Files that have been seen are passed over and cost nothing. -/
def scanLoop : ℕ → List Path → Option IncludeHit → List Path → Option IncludeHit
  | 0, _, best, _ => best
  | budget + 1, seen, best, queue =>
    match queue.dropWhile (· ∈ seen) with
    | [] => best
    | file :: queue =>
      let s := scanFile files want file (best, queue)
      scanLoop budget (file :: seen) s.1 s.2

/-- `scan_for_recovery_include`. -/
def scanForRecoveryInclude (root : Path) : Option IncludeHit :=
  scanLoop files want includeScanMaxFiles [] none [root]

/-! ## What PostgreSQL reads -/

def pgDirectives (file : Path) : List (IncludeKey × List Char) :=
  match files.fs.readFile files.cwd file with
  | none => []
  | some bytes => (confLines (fromUtf8Lossy bytes)).filterMap readInclude

/-- The names that an `include_dir` reads: they end in `.conf` and do not start with a dot. -/
def isConfName (n : Name) : Bool :=
  decide (6 ≤ len n.toList) && decide (n.toList.head? ≠ some '.') &&
    ".conf".toList.isSuffixOf n.toList

def pgTargets (file : Path) (d : IncludeKey × List Char) : List Path :=
  let target := includeTarget file d.2
  match d.1 with
  | .dir =>
    match files.fs.readDir files.cwd target with
    | none => []
    | some names => (names.filter isConfName).map fun n => target.join (Path.ofName n)
  | _ => [target]

def pgNext (file : Path) : List Path := (pgDirectives files file).flatMap (pgTargets files file)

/-- PostgreSQL reads the file when it starts from the root. -/
def pgReads (root : Path) : Path → Prop := Worklist.Reachable (pgNext files) root

/-- A directive that names a file of the recovery file's name. -/
def NamesRecovery (file : Path) (d : IncludeKey × List Char) : Prop :=
  d.1 ≠ .dir ∧ (includeTarget file d.2).fileName = some recoveryConfFile

/-- A file that PostgreSQL reads from the root, and not only since it is named as the recovery file,
or stands in one that is. -/
def pgTree (root : Path) : Path → Prop :=
  Relation.ReflTransGen (fun file a => ∃ d ∈ pgDirectives files file,
    ¬ NamesRecovery file d ∧
    a ∈ pgTargets files file d) root

/-- The directory that a path is in; a name alone is in the working directory. -/
def directoryOf (p : Path) : Option RealPath :=
  p.parent.bind fun d =>
    if d = ⟨false, []⟩ then some files.cwd else files.fs.canonicalize files.cwd d

/-- Two paths mean the same file, whether there is one or not: they are spelled alike, or they have
the same name in the same directory. -/
def SameFile (a b : Path) : Prop :=
  a = b ∨ ∃ d n, directoryOf files a = some d ∧ directoryOf files b = some d ∧
    a.fileName = some n ∧ b.fileName = some n

/-- A file is spelled in two ways, and one of them is its name alone. -/
def SpelledApart (a b : Path) : Prop :=
  SameFile files a b ∧ a ≠ b ∧
  (a.parent = some ⟨false, []⟩ ∨ b.parent = some ⟨false, []⟩)

/-- A file that PostgreSQL reads from the root has an `include_if_exists` of the wanted file. -/
def PgIncludes (root : Path) : Prop :=
  ∃ file value, pgReads files root file ∧
    (IncludeKey.ifExists, value) ∈ pgDirectives files file ∧
    SameFile files (includeTarget file value) want

/-! ## The best hit -/

section Best

variable {files want}

/-- The rank of an answer, 0 if there is none. -/
def rankOf (best : Option IncludeHit) : ℕ := best.elim 0 IncludeHit.rank

theorem rankOf_better_le_iff {best : Option IncludeHit} {hit : IncludeHit} {m : ℕ} :
    rankOf (better best hit) ≤ m ↔ rankOf best ≤ m ∧ hit.rank ≤ m := by
  cases best with
  | none => exact ⟨fun h => ⟨Nat.zero_le m, h⟩, fun h => h.2⟩
  | some b =>
    show rankOf (if b.rank < hit.rank then some hit else some b) ≤ m ↔
        b.rank ≤ m ∧ hit.rank ≤ m
    split
    · next hlt => exact ⟨fun h => ⟨hlt.le.trans h, h⟩, fun h => h.2⟩
    · next hle => exact ⟨fun h => ⟨h, (not_lt.mp hle).trans h⟩, fun h => h.1⟩

theorem rankOf_foldl_le_iff {hits : List IncludeHit} {best : Option IncludeHit} {m : ℕ} :
    rankOf (hits.foldl better best) ≤ m ↔
      rankOf best ≤ m ∧ ∀ hit ∈ hits, hit.rank ≤ m := by
  induction hits generalizing best with
  | nil => exact ⟨fun h => ⟨h, fun _ hmem => absurd hmem List.not_mem_nil⟩, fun h => h.1⟩
  | cons hit hits ih =>
    rw [List.foldl_cons, ih, rankOf_better_le_iff, and_assoc, List.forall_mem_cons]

/-- The best hits are the optional ones. -/
theorem three_le_rank_iff {hit : IncludeHit} :
    3 ≤ hit.rank ↔ ∃ file, hit = .optional file := by
  cases hit <;> simp [IncludeHit.rank]

theorem eq_optional_iff {best : Option IncludeHit} :
    (∃ file, best = some (.optional file)) ↔ ¬ rankOf best ≤ 2 := by
  cases best with
  | none => simp [rankOf]
  | some hit =>
    rw [Nat.not_le, Nat.lt_iff_add_one_le]
    refine Iff.trans ?_ three_le_rank_iff.symm
    simp only [Option.some.injEq]

end Best

/-! ## One file -/

/-- The files that a directive puts on the stack. -/
def scanTargets (file : Path) (d : IncludeKey × List Char) : List Path :=
  let target := includeTarget file d.2
  match d.1 with
  | .dir => confs files target
  | _ => if target.fileName = some recoveryConfFile then [] else [target]

/-- The hit that a directive is. -/
def scanHit (file : Path) (d : IncludeKey × List Char) : Option IncludeHit :=
  match d.1 with
  | .dir => none
  | key =>
    if (includeTarget file d.2).fileName = some recoveryConfFile then
      some (includeHit files want file (key = .ifExists) d.2)
    else none

def scanNext (file : Path) : List Path := (directives files file).flatMap (scanTargets files file)

def hits (file : Path) : List IncludeHit :=
  (directives files file).filterMap (scanHit files want file)

section ScanFile

variable {files want} {file a : Path} {s : Option IncludeHit × List Path}

theorem scanDirective_fst (d : IncludeKey × List Char) :
    (scanDirective files want file s d).1 =
      match scanHit files want file d with
      | some hit => better s.1 hit
      | none => s.1 := by
  obtain ⟨k, value⟩ := d
  unfold scanDirective scanHit
  cases k with
  | dir => rfl
  | file =>
    dsimp only
    split <;> rfl
  | ifExists =>
    dsimp only
    split <;> rfl

theorem mem_scanDirective_snd (d : IncludeKey × List Char) :
    a ∈ (scanDirective files want file s d).2 ↔
      a ∈ scanTargets files file d ∨ a ∈ s.2 := by
  obtain ⟨k, value⟩ := d
  unfold scanDirective scanTargets
  cases k with
  | dir =>
    show a ∈ (confs files (includeTarget file value)).reverse ++ s.2 ↔ _
    rw [List.mem_append, List.mem_reverse]
  | file =>
    dsimp only
    split <;> simp
  | ifExists =>
    dsimp only
    split <;> simp

theorem scanFile_spec : (scanFile files want file s).1 = (hits files want file).foldl better s.1 ∧
    ∀ a, a ∈ (scanFile files want file s).2 ↔ a ∈ scanNext files file ∨ a ∈ s.2 := by
  unfold scanFile hits scanNext
  generalize directives files file = ds
  induction ds generalizing s with
  | nil => exact ⟨rfl, fun a => by simp⟩
  | cons d ds ih =>
    obtain ⟨hbest, hqueue⟩ := ih (s := scanDirective files want file s d)
    rw [List.foldl_cons, List.filterMap_cons, List.flatMap_cons]
    constructor
    · rw [hbest, scanDirective_fst]
      cases scanHit files want file d <;> rfl
    · intro a
      rw [hqueue, mem_scanDirective_snd, List.mem_append, or_left_comm, or_assoc]

end ScanFile

/-! ## The whole search -/

/-- No hit in these files is better than `m`. -/
def HitsBelow (vs : List Path) (m : ℕ) : Prop :=
  ∀ file ∈ vs, ∀ hit ∈ hits files want file, hit.rank ≤ m

/-- Where the search stands: what has been seen, the best hit in it, and what is still to do. -/
structure Scanned (root : Path) (seen : List Path) (best : Option IncludeHit) (queue : List Path) :
    Prop where
  visited : Worklist.Visited (scanNext files) root seen
  queued : ∀ a ∈ queue, Worklist.Found (scanNext files) root seen a
  found : ∀ a, Worklist.Found (scanNext files) root seen a → a ∈ seen ∨ a ∈ queue
  best : ∀ m, rankOf best ≤ m ↔ HitsBelow files want seen m

namespace Scanned

variable {files want} {root file : Path} {seen queue rest : List Path} {best : Option IncludeHit}

theorem start (root : Path) : Scanned files want root [] none [root] where
  visited := .start
  queued a ha := Or.inl (List.mem_singleton.mp ha)
  found a ha := by
    rcases ha with rfl | ⟨b, hb, -⟩
    · exact Or.inr List.mem_cons_self
    · exact absurd hb List.not_mem_nil
  best m := ⟨fun _ file hfile => absurd hfile List.not_mem_nil, fun _ => Nat.zero_le m⟩

/-- What has been seen is passed over. -/
theorem mem_dropWhile (h : Scanned files want root seen best queue) {a : Path}
    (ha : Worklist.Found (scanNext files) root seen a) :
    a ∈ seen ∨ a ∈ queue.dropWhile (· ∈ seen) := by
  rcases h.found a ha with hseen | hqueue
  · exact Or.inl hseen
  · rw [← List.takeWhile_append_dropWhile (p := (· ∈ seen)) (l := queue), List.mem_append]
      at hqueue
    rcases hqueue with htake | hdrop
    · have hseen := List.mem_takeWhile_imp htake
      exact Or.inl (of_decide_eq_true hseen)
    · exact Or.inr hdrop

theorem complete (h : Scanned files want root seen best queue)
    (hqueue : queue.dropWhile (· ∈ seen) = []) :
    Worklist.Complete (scanNext files) root seen := by
  intro a ha
  rcases h.mem_dropWhile ha with hseen | hdrop
  · exact hseen
  · rw [hqueue] at hdrop
    cases hdrop

/-- One file. -/
theorem step (h : Scanned files want root seen best queue)
    (hqueue : queue.dropWhile (· ∈ seen) = file :: rest) :
    Scanned files want root (file :: seen) (scanFile files want file (best, rest)).1
      (scanFile files want file (best, rest)).2 := by
  obtain ⟨hbest, hnext⟩ := @scanFile_spec files want file (best, rest)
  have hsub : ∀ a ∈ file :: rest, a ∈ queue := fun a ha =>
    (List.dropWhile_sublist _).subset (hqueue ▸ ha)
  have hgrow : ∀ a, Worklist.Found (scanNext files) root seen a →
      Worklist.Found (scanNext files) root (file :: seen) a := by
    rintro a (rfl | ⟨b, hb, hab⟩)
    · exact Or.inl rfl
    · exact Or.inr ⟨b, List.mem_cons_of_mem file hb, hab⟩
  refine ⟨.visit h.visited ?_ (h.queued file (hsub file List.mem_cons_self)), ?_, ?_, ?_⟩
  · intro hseen
    have hnot := List.head?_dropWhile_not (· ∈ seen) queue
    rw [hqueue] at hnot
    exact of_decide_eq_false hnot hseen
  · intro a ha
    rcases (hnext a).mp ha with ha | ha
    · exact Or.inr ⟨file, List.mem_cons_self, ha⟩
    · exact hgrow a (h.queued a (hsub a (List.mem_cons_of_mem file ha)))
  · intro a ha
    -- it was found before, or this file leads to it
    have hcases : Worklist.Found (scanNext files) root seen a ∨ a ∈ scanNext files file := by
      rcases ha with rfl | ⟨b, hb, hab⟩
      · exact Or.inl (Or.inl rfl)
      · rcases List.mem_cons.mp hb with rfl | hb
        · exact Or.inr hab
        · exact Or.inl (Or.inr ⟨b, hb, hab⟩)
    rcases hcases with hfound | hedge
    · rcases h.mem_dropWhile hfound with hseen | hdrop
      · exact Or.inl (List.mem_cons_of_mem file hseen)
      · rw [hqueue] at hdrop
        rcases List.mem_cons.mp hdrop with rfl | hrest
        · exact Or.inl List.mem_cons_self
        · exact Or.inr ((hnext a).mpr (Or.inr hrest))
    · exact Or.inr ((hnext a).mpr (Or.inl hedge))
  · intro m
    rw [hbest, rankOf_foldl_le_iff, h.best m]
    unfold HitsBelow
    rw [List.forall_mem_cons, and_comm]

end Scanned

/-- The search has visited everything that it found, or it has used up the budget. -/
theorem scanLoop_spec {root : Path} {budget : ℕ} {seen queue : List Path}
    {best : Option IncludeHit} (h : Scanned files want root seen best queue) :
    ∃ vs, Worklist.Visited (scanNext files) root vs ∧
      (Worklist.Complete (scanNext files) root vs ∨ seen.length + budget = vs.length) ∧
      ∀ m, rankOf (scanLoop files want budget seen best queue) ≤ m ↔
        HitsBelow files want vs m := by
  induction budget generalizing seen best queue with
  | zero => exact ⟨seen, h.visited, Or.inr rfl, h.best⟩
  | succ budget ih =>
    rw [scanLoop]
    split
    · next hqueue => exact ⟨seen, h.visited, Or.inl (h.complete hqueue), h.best⟩
    · next file rest hqueue =>
      obtain ⟨vs, hvisited, hend, hrank⟩ := ih (h.step hqueue)
      refine ⟨vs, hvisited, hend.imp_right fun hlen => ?_, hrank⟩
      rw [← hlen, List.length_cons]
      omega

/-! ## Targets -/

section Target

variable {files} {a b d : Path} {n m : Name}

theorem exists_parent (h : a.fileName = some n) : ∃ d, a.parent = some d := by
  have hne : a.components ≠ [] := by
    intro hnil
    rw [Path.fileName_eq_some_iff, hnil] at h
    cases h
  exact ⟨_, if_neg hne⟩

/-- What a directory is compared as: the place it names, or its path if it names none. -/
def normParent (files : Files) (d : Path) : Path :=
  match files.fs.canonicalize files.cwd d with
  | some r => Path.ofReal r
  | none => d

theorem norm_eq (hparent : a.parent = some d) (hname : a.fileName = some n) :
    norm files a = (normParent files d).join (Path.ofName n) := by
  unfold norm
  rw [hparent, hname]
  rfl

theorem ofReal_injective {r r' : RealPath} (h : Path.ofReal r = Path.ofReal r') : r = r' := by
  have hcomponents : r.map Component.normal = r'.map Component.normal := congrArg Path.components h
  refine List.map_injective_iff.mpr ?_ hcomponents
  exact fun _ _ hnames => Component.normal.inj hnames

/-- Directories that are compared as the same place name it, or they are spelled alike. -/
theorem normParent_eq_iff {d' : Path} : normParent files d = normParent files d' ↔
    d = d' ∨ ∃ r, files.fs.canonicalize files.cwd d = some r ∧
      files.fs.canonicalize files.cwd d' = some r := by
  have hplace : ∀ {p r}, files.fs.canonicalize files.cwd p = some r →
      files.fs.canonicalize files.cwd (Path.ofReal r) = some r := fun h =>
    FileTree.canonicalize_canonicalize files.cwd_dir h
  unfold normParent
  cases hd : files.fs.canonicalize files.cwd d with
  | none =>
    cases hd' : files.fs.canonicalize files.cwd d' with
    | none => exact ⟨Or.inl, fun h => h.resolve_right fun ⟨r, hr, _⟩ => nomatch hr⟩
    | some r =>
      constructor
      · -- a place that exists is named by its own path
        rintro rfl
        rw [hplace hd'] at hd
        cases hd
      · rintro (rfl | ⟨r, hr, -⟩)
        · rw [hd] at hd'
          cases hd'
        · cases hr
  | some r =>
    cases hd' : files.fs.canonicalize files.cwd d' with
    | none =>
      constructor
      · rintro rfl
        rw [hplace hd] at hd'
        cases hd'
      · rintro (rfl | ⟨r', -, hr'⟩)
        · rw [hd] at hd'
          cases hd'
        · cases hr'
    | some r' =>
      constructor
      · intro h
        exact Or.inr ⟨r, rfl, by rw [ofReal_injective h]⟩
      · rintro (rfl | ⟨q, hq, hq'⟩)
        · rw [hd] at hd'
          rw [Option.some.inj hd']
        · rw [Option.some.inj hq, Option.some.inj hq']

theorem canonicalize_empty : files.fs.canonicalize files.cwd ⟨false, []⟩ = none := by
  unfold FileTree.canonicalize
  rw [if_neg Bool.false_ne_true, if_pos rfl]

/-- What the comparison makes of two files: they are spelled alike, or their names are the same and
their directories are the same place. -/
theorem sameTarget_eq_true_iff {d' : Path} (ha : a.fileName = some n) (hb : b.fileName = some m)
    (hda : a.parent = some d) (hdb : b.parent = some d') :
    sameTarget files a b = true ↔ a = b ∨ n = m ∧ ∃ r,
      files.fs.canonicalize files.cwd d = some r ∧
      files.fs.canonicalize files.cwd d' = some r := by
  have hnorm : norm files a = norm files b ↔
      normParent files d = normParent files d' ∧ n = m := by
    rw [norm_eq hda ha, norm_eq hdb hb, Path.join_ofName, Path.join_ofName]
    constructor
    · intro h
      obtain ⟨habsolute, hcomponents⟩ := Unix.Path.mk.inj h
      obtain ⟨hfront, hlast⟩ := List.append_inj' hcomponents rfl
      exact ⟨Unix.Path.mk.injEq .. ▸ ⟨habsolute, hfront⟩,
        Component.normal.inj (List.cons.inj hlast).1⟩
    · rintro ⟨h, rfl⟩
      rw [h]
  unfold sameTarget
  rw [Bool.or_eq_true, decide_eq_true_eq, decide_eq_true_eq, hnorm, normParent_eq_iff]
  constructor
  · rintro (h | ⟨rfl | hplace, rfl⟩)
    · exact Or.inl h
    · exact Or.inl (by rw [Path.eq_of_parent_fileName hda ha, Path.eq_of_parent_fileName hdb hb])
    · exact Or.inr ⟨rfl, hplace⟩
  · rintro (h | ⟨hname, hplace⟩)
    · exact Or.inl h
    · exact Or.inr ⟨Or.inr hplace, hname⟩

/-- **The comparison of two targets**: they are the same file, and it is not spelled as a name alone
on one side only. -/
theorem sameTarget_iff (ha : a.fileName = some n) (hb : b.fileName = some m) :
    sameTarget files a b = true ↔ SameFile files a b ∧ ¬ SpelledApart files a b := by
  obtain ⟨da, hda⟩ := exists_parent ha
  obtain ⟨db, hdb⟩ := exists_parent hb
  have hdirectory : ∀ {p d : Path}, p.parent = some d → d ≠ ⟨false, []⟩ →
      directoryOf files p = files.fs.canonicalize files.cwd d := by
    intro p d hparent hne
    unfold directoryOf
    rw [hparent, Option.bind_some, if_neg hne]
  rw [sameTarget_eq_true_iff ha hb hda hdb]
  constructor
  · rintro (rfl | ⟨rfl, r, hr, hr'⟩)
    · exact ⟨Or.inl rfl, fun h => h.2.1 rfl⟩
    · have hplace : ∀ {d : Path}, files.fs.canonicalize files.cwd d = some r →
          d ≠ ⟨false, []⟩ := by
        rintro d hd rfl
        rw [canonicalize_empty] at hd
        cases hd
      refine ⟨Or.inr ⟨r, n, (hdirectory hda (hplace hr)).trans hr,
        (hdirectory hdb (hplace hr')).trans hr', ha, hb⟩, fun h => ?_⟩
      rcases h.2.2 with hbare | hbare
      · exact hplace hr (Option.some.inj (hda.symm.trans hbare))
      · exact hplace hr' (Option.some.inj (hdb.symm.trans hbare))
  · rintro ⟨hsame, hapart⟩
    by_cases heq : a = b
    · exact Or.inl heq
    · obtain ⟨hnea, hneb⟩ := not_or.mp fun h => hapart ⟨hsame, heq, h⟩
      rcases hsame with h | ⟨r, k, hr, hr', hk, hk'⟩
      · exact absurd h heq
      · have hsamename : n = m :=
          Option.some.inj ((ha.symm.trans hk).trans (hk'.symm.trans hb))
        refine Or.inr ⟨hsamename, r, ?_, ?_⟩
        · rw [← hdirectory hda fun h => hnea (hda.trans (congrArg some h)), hr]
        · rw [← hdirectory hdb fun h => hneb (hdb.trans (congrArg some h)), hr']

/-- A file that is the wanted one has its name. -/
theorem SameFile.fileName (h : SameFile files a b) (hb : b.fileName = some m) :
    a.fileName = some m := by
  rcases h with rfl | ⟨-, k, -, -, ha, hk⟩
  · exact hb
  · rw [ha, ← hk, hb]

end Target

/-! ## Plain configurations -/

/-- The file that the agent writes. -/
def wanted (dataDir : Path) : Path := dataDir.join (Path.ofName recoveryConfFile)

/-- The best hit of files that are visited one after the other, the last one first. -/
def bestOf (vs : List Path) : Option IncludeHit :=
  (vs.reverse.flatMap (hits files want)).foldl better none

/-- The search decides what PostgreSQL would read, and the rank of its answer is that of any search
that visits everything it finds. -/
structure ScanDecides (dataDir root : Path) : Prop where
  optional :
    (∃ file, scanForRecoveryInclude files (wanted dataDir) root = some (.optional file)) ↔
      PgIncludes files (wanted dataDir) root
  order : ∀ vs, Worklist.Visited (scanNext files) root vs →
    Worklist.Complete (scanNext files) root vs →
    rankOf (bestOf files (wanted dataDir) vs) =
      rankOf (scanForRecoveryInclude files (wanted dataDir) root)

/-- A configuration on which the search does what PostgreSQL does. -/
structure PlainConfig (dataDir root : Path) : Prop where
  /-- A file with includes is a text. -/
  utf8 : ∀ file bytes, pgTree files root file →
    files.fs.readFile files.cwd file = some bytes →
    fromUtf8 bytes ≠ none ∨ pgDirectives files file = []
  /-- The lines are plain. -/
  plain : ∀ file text, pgTree files root file → readToString files file = some text →
    ∀ line ∈ confLines text, PlainLine line
  /-- There are no hidden files to include. -/
  visible : ∀ file value names n, pgTree files root file →
    (IncludeKey.dir, value) ∈ pgDirectives files file →
    files.fs.readDir files.cwd (includeTarget file value) = some names → n ∈ names →
    hasConfExtension n = true → n.toList.head? ≠ some '.'
  /-- A recovery file includes nothing, unless it is read in another way as well. -/
  leaf : ∀ file d, pgTree files root file → d ∈ pgDirectives files file →
    NamesRecovery file d →
    pgDirectives files (includeTarget file d.2) = [] ∨ pgTree files root (includeTarget file d.2)
  /-- The recovery file is not spelled as a name alone on one side only. -/
  spelled : ∀ file value, pgTree files root file →
    (.ifExists, value) ∈ pgDirectives files file →
    ¬ SpelledApart files (includeTarget file value) (wanted dataDir)
  /-- There are not too many files, each counted as often as it is spelled in different ways. -/
  few : ∃ l : List Path, l.length ≤ includeScanMaxFiles ∧
      ∀ file, pgTree files root file → file ∈ l

section Plain

variable {files want} {dataDir root file a : Path}

theorem directives_eq (h : PlainConfig files dataDir root) (hfile : pgTree files root file) :
    directives files file = pgDirectives files file := by
  cases hread : files.fs.readFile files.cwd file with
  | none =>
    unfold directives pgDirectives readToString
    rw [hread]
    rfl
  | some bytes =>
    have hstring : readToString files file = fromUtf8 bytes := by
      unfold readToString
      rw [hread, Option.bind_some]
    cases htext : fromUtf8 bytes with
    | none =>
      have hnone := (h.utf8 file bytes hfile hread).resolve_left (not_not.mpr htext)
      unfold directives
      rw [hstring, htext, hnone]
    | some text =>
      have hlines := h.plain file text hfile (hstring.trans htext)
      unfold directives pgDirectives
      rw [hstring, htext, hread]
      dsimp only
      rw [fromUtf8Lossy_of_fromUtf8 htext, directives_of_plain hlines]

/-- The names of an `include_dir` are the same, if none is hidden. -/
theorem hasConfExtension_iff {n : Name}
    (h : hasConfExtension n = true → n.toList.head? ≠ some '.') :
    hasConfExtension n = true ↔ isConfName n = true := by
  have hsuffix : ".conf".toList.isSuffixOf n.toList = true →
      ∃ front, n.toList = front ++ ".conf".toList :=
    fun hsuf => (List.isSuffixOf_iff_suffix.mp hsuf).imp fun _ heq => heq.symm
  have hlen : len ".conf".toList = 5 := by decide +kernel
  constructor
  · intro hn
    have hdot := h hn
    obtain ⟨hsuf, hne⟩ := Bool.and_eq_true_iff.mp hn
    obtain ⟨front, hfront⟩ := hsuffix hsuf
    have hpos : 0 < len front := by
      refine Nat.pos_of_ne_zero fun hzero => of_decide_eq_true hne ?_
      rw [hfront, len_eq_zero_iff.mp hzero, List.nil_append]
    have hsix : 6 ≤ len n.toList := by
      rw [hfront, len_append, hlen]
      omega
    unfold isConfName
    rw [decide_eq_true hsix, decide_eq_true hdot, hsuf]
    rfl
  · intro hn
    unfold isConfName at hn
    rw [Bool.and_eq_true, Bool.and_eq_true, decide_eq_true_eq] at hn
    obtain ⟨⟨hsix, -⟩, hsuf⟩ := hn
    refine Bool.and_eq_true_iff.mpr ⟨hsuf, decide_eq_true fun heq => ?_⟩
    rw [heq, hlen] at hsix
    omega

theorem mem_confs_iff {target : Path} : a ∈ confs files target ↔
    ∃ names n, files.fs.readDir files.cwd target = some names ∧ n ∈ names ∧
      hasConfExtension n = true ∧ target.join (Path.ofName n) = a := by
  unfold confs
  cases files.fs.readDir files.cwd target with
  | none => simp
  | some names =>
    simp only [List.mem_map, List.mem_insertionSort, List.mem_filter, Option.some.injEq,
      exists_and_left, exists_eq_left', and_assoc]

/-- A directive leads to the same files, except for the recovery file, which the search does not
read. -/
theorem mem_scanTargets_iff (h : PlainConfig files dataDir root) (hfile : pgTree files root file)
    {d : IncludeKey × List Char} (hd : d ∈ pgDirectives files file) :
    a ∈ scanTargets files file d ↔
      ¬ NamesRecovery file d ∧ a ∈ pgTargets files file d := by
  obtain ⟨k, value⟩ := d
  have hsingle : k ≠ .dir →
      (a ∈ (if (includeTarget file value).fileName = some recoveryConfFile then []
        else [includeTarget file value]) ↔
        ¬ NamesRecovery file (k, value) ∧ a ∈ [includeTarget file value]) := by
    intro hk
    split
    · next hname =>
      exact ⟨fun hmem => absurd hmem List.not_mem_nil,
        fun hmem => absurd ⟨hk, hname⟩ hmem.1⟩
    · next hname =>
        exact ⟨fun hmem => ⟨fun hboth => hname hboth.2, hmem⟩, fun hmem => hmem.2⟩
  cases k with
  | file => exact hsingle nofun
  | ifExists => exact hsingle nofun
  | dir =>
    have hnames : a ∈ confs files (includeTarget file value) ↔
        a ∈ pgTargets files file (.dir, value) := by
      rw [mem_confs_iff]
      unfold pgTargets
      dsimp only
      cases hdir : files.fs.readDir files.cwd (includeTarget file value) with
      | none => simp
      | some names =>
        have hname : ∀ n ∈ names, (hasConfExtension n = true ↔ isConfName n = true) :=
          fun n hn =>
          hasConfExtension_iff (h.visible file value names n hfile hd hdir hn)
        simp only [Option.some.injEq, List.mem_map, List.mem_filter]
        constructor
        · rintro ⟨_, n, rfl, hn, hext, heq⟩
          exact ⟨n, ⟨hn, (hname n hn).mp hext⟩, heq⟩
        · rintro ⟨n, ⟨hn, hconf⟩, heq⟩
          exact ⟨names, n, rfl, hn, (hname n hn).mpr hconf, heq⟩
    exact hnames.trans ⟨fun hmem => ⟨fun hboth => hboth.1 rfl, hmem⟩, fun hmem => hmem.2⟩

theorem mem_scanNext_iff (h : PlainConfig files dataDir root) (hfile : pgTree files root file) :
    a ∈ scanNext files file ↔
      ∃ d ∈ pgDirectives files file, ¬ NamesRecovery file d ∧
        a ∈ pgTargets files file d := by
  unfold scanNext
  rw [directives_eq h hfile, List.mem_flatMap]
  exact exists_congr fun d => and_congr_right fun hd => mem_scanTargets_iff h hfile hd

/-- The search comes to the files of the tree. -/
theorem reachable_iff (h : PlainConfig files dataDir root) :
    Worklist.Reachable (scanNext files) root file ↔ pgTree files root file := by
  constructor
  · refine Worklist.Reachable.ind .refl fun b a _ hb ha => ?_
    exact hb.tail ((mem_scanNext_iff h hb).mp ha)
  · intro htree
    induction htree with
    | refl => exact .start
    | tail hb ha ih => exact ih.step ((mem_scanNext_iff h hb).mpr ha)

theorem pgReads_of_pgTree (h : pgTree files root file) : pgReads files root file := by
  induction h with
  | refl => exact .start
  | tail _ ha ih =>
    obtain ⟨d, hd, -, hmem⟩ := ha
    exact ih.step (List.mem_flatMap.mpr ⟨d, hd, hmem⟩)

/-- What PostgreSQL reads beyond the tree has no directives. -/
theorem pgTree_of_pgReads (h : PlainConfig files dataDir root) (hfile : pgReads files root file) :
    pgTree files root file ∨ pgDirectives files file = [] := by
  refine Worklist.Reachable.ind (motive := fun a =>
    pgTree files root a ∨ pgDirectives files a = []) (Or.inl .refl)
    (fun b a _ hcases ha => ?_) hfile
  obtain ⟨d, hd, hmem⟩ := List.mem_flatMap.mp ha
  rcases hcases with hb | hnone
  · by_cases hrecovery : NamesRecovery b d
    · have htarget : a = includeTarget b d.2 := by
        obtain ⟨k, value⟩ := d
        cases k with
        | dir => exact absurd rfl hrecovery.1
        | file => exact List.mem_singleton.mp hmem
        | ifExists => exact List.mem_singleton.mp hmem
      rw [htarget]
      exact (h.leaf b d hb hd hrecovery).symm
    · exact Or.inl (hb.tail ⟨d, hd, hrecovery, hmem⟩)
  · rw [hnone] at hd
    cases hd

/-- The optional hits of a file. -/
theorem exists_optional_iff : (∃ hit ∈ hits files want file, 3 ≤ hit.rank) ↔
    ∃ value, (IncludeKey.ifExists, value) ∈ directives files file ∧
      (includeTarget file value).fileName = some recoveryConfFile ∧
      sameTarget files (includeTarget file value) want = true := by
  constructor
  · rintro ⟨hit, hmem, hrank⟩
    obtain ⟨f, rfl⟩ := three_le_rank_iff.mp hrank
    obtain ⟨⟨k, value⟩, hd, hhit⟩ := List.mem_filterMap.mp hmem
    unfold scanHit includeHit at hhit
    cases k with
    | dir => cases hhit
    | file =>
      dsimp only at hhit
      split at hhit
      · split at hhit
        · cases hhit
        · cases hhit
      · cases hhit
    | ifExists =>
      dsimp only at hhit
      split at hhit
      · next hname =>
        split at hhit
        · next hsame => exact ⟨value, hd, hname, hsame⟩
        · cases hhit
      · cases hhit
  · rintro ⟨value, hd, hname, hsame⟩
    refine ⟨.optional file, List.mem_filterMap.mpr ⟨_, hd, ?_⟩, le_rfl⟩
    unfold scanHit includeHit
    dsimp only
    rw [if_pos hname, if_pos hsame]
    rfl

theorem rankOf_bestOf_le_iff {vs : List Path} {m : ℕ} :
    rankOf (bestOf files want vs) ≤ m ↔ HitsBelow files want vs m := by
  unfold bestOf
  rw [rankOf_foldl_le_iff]
  constructor
  · exact fun h file hfile hit hhit =>
      h.2 hit (List.mem_flatMap.mpr ⟨file, List.mem_reverse.mpr hfile, hhit⟩)
  · intro h
    refine ⟨Nat.zero_le m, fun hit hhit => ?_⟩
    obtain ⟨file, hfile, hmem⟩ := List.mem_flatMap.mp hhit
    exact h file (List.mem_reverse.mp hfile) hit hmem

/-- The answer is the best hit of the files that can be reached. -/
theorem rankOf_scan_le_iff (want : Path) (h : PlainConfig files dataDir root) {m : ℕ} :
    rankOf (scanForRecoveryInclude files want root) ≤ m ↔
      ∀ file, Worklist.Reachable (scanNext files) root file →
        ∀ hit ∈ hits files want file, hit.rank ≤ m := by
  obtain ⟨vs, hvisited, hend, hrank⟩ :=
    @scanLoop_spec files want root includeScanMaxFiles _ _ _ (Scanned.start root)
  have hcomplete : Worklist.Complete (scanNext files) root vs := by
    rcases hend with hcomplete | hlen
    · exact hcomplete
    · obtain ⟨l, hl, hmem⟩ := h.few
      refine hvisited.complete_of_length (fun a ha => hmem a ((reachable_iff h).mp ha)) ?_
      rwa [← hlen, List.length_nil, Nat.zero_add]
  unfold scanForRecoveryInclude
  rw [hrank m]
  unfold HitsBelow
  exact forall_congr' fun file => imp_congr_left (hvisited.mem_iff hcomplete)

end Plain

/-! ## Two configurations -/

def asciiBytes (s : String) : List UInt8 := s.toList.map fun c => UInt8.ofNat c.toNat

def pgData : Path := .ofReal ["pg"]

def pgConf : Path := .ofReal ["pg", "postgresql.conf"]

/-- The file in the data directory includes a file `5` and the recovery file beside it. -/
def plainFiles : Files where
  fs := FileTree.ofNodes [⟨[], .dir⟩, ⟨["pg"], .dir⟩,
    ⟨["pg", "postgresql.conf"], .file 0
      (asciiBytes "include 5\ninclude_if_exists = 'myrecovery.conf'")⟩,
    ⟨["pg", "5"], .file 1 []⟩].toAList 2 (by decide +kernel)
  cwd := []
  cwd_dir := by decide +kernel

def pgFive : Path := .ofReal ["pg", "5"]

/-- The second line of `plainFiles`. -/
def plainInclude : IncludeLine where
  key := .ifExists
  indent := []
  name := "include_if_exists".toList
  front := [' ']
  sign := true
  back := [' ']
  quoted := true
  value := "myrecovery.conf".toList
  tail := []
  indent_blank := by simp
  name_key := by decide +kernel
  front_blank c hc := by
    rw [List.mem_singleton.mp hc]
    rfl
  back_blank c hc := by
    rw [List.mem_singleton.mp hc]
    rfl
  quoted_form := fun _ => ⟨by decide +kernel, by decide +kernel,
    fun h => absurd (h 'm' (by decide +kernel)) (by decide)⟩
  bare_form := nofun
  tail_form := rfl

theorem pgDirectives_pgConf : pgDirectives plainFiles pgConf =
    [(.file, "5".toList), (.ifExists, "myrecovery.conf".toList)] := by
  decide +kernel

theorem pgDirectives_pgFive : pgDirectives plainFiles pgFive = [] := by
  decide +kernel

theorem pgTree_plainFiles {file : Path} (h : pgTree plainFiles pgConf file) :
    file = pgConf ∨ file = pgFive := by
  induction h with
  | refl => exact Or.inl rfl
  | tail _ ha ih =>
    obtain ⟨d, hd, hother, hmem⟩ := ha
    rcases ih with rfl | rfl
    · rw [pgDirectives_pgConf] at hd
      simp only [List.mem_cons, List.not_mem_nil, or_false] at hd
      rcases hd with rfl | rfl
      · exact Or.inr ((List.mem_singleton.mp hmem).trans (by decide +kernel))
      · exact absurd ⟨nofun, by decide +kernel⟩ hother
    · rw [pgDirectives_pgFive] at hd
      cases hd

theorem plainConfig_plainFiles : PlainConfig plainFiles pgData pgConf := by
  have htarget : includeTarget pgConf "myrecovery.conf".toList = wanted pgData := by decide +kernel
  -- what the directives are
  have hdirectives : ∀ file d, pgTree plainFiles pgConf file →
      d ∈ pgDirectives plainFiles file →
      file = pgConf ∧
      (d = (.file, "5".toList) ∨ d = (.ifExists, "myrecovery.conf".toList)) := by
    intro file d hfile hd
    rcases pgTree_plainFiles hfile with rfl | rfl
    · rw [pgDirectives_pgConf] at hd
      simpa using hd
    · rw [pgDirectives_pgFive] at hd
      cases hd
  refine ⟨?_, ?_, ?_, ?_, ?_, [pgConf, pgFive], by decide, fun file hfile => ?_⟩
  · intro file bytes hfile hbytes
    rcases pgTree_plainFiles hfile with rfl | rfl
    · refine Or.inl fun hnone => ?_
      have hsome : (readToString plainFiles pgConf).isSome = true := by decide +kernel
      unfold readToString at hsome
      rw [hbytes, Option.bind_some, hnone] at hsome
      cases hsome
    · exact Or.inr pgDirectives_pgFive
  · intro file text hfile htext line hline
    rcases pgTree_plainFiles hfile with rfl | rfl
    · have hlines : (readToString plainFiles pgConf).map confLines =
          some ["include 5".toList, plainInclude.text] := by decide +kernel
      rw [htext, Option.map_some, Option.some.injEq] at hlines
      rw [hlines, List.mem_cons, List.mem_singleton] at hline
      rcases hline with rfl | rfl
      · exact parseIncludeDirective_eq_readInclude_iff.mp (by decide +kernel)
      · exact plainLine_text plainInclude
    · have hempty : (readToString plainFiles pgFive).map confLines = some [[]] := by decide +kernel
      rw [htext, Option.map_some, Option.some.injEq] at hempty
      rw [hempty, List.mem_singleton] at hline
      rw [hline]
      exact Or.inl (by decide)
  · intro file value names n hfile hd
    rcases (hdirectives file _ hfile hd).2 with h | h <;> cases h
  · intro file d hfile hd hrecovery
    obtain ⟨rfl, rfl | rfl⟩ := hdirectives file d hfile hd
    · exact absurd hrecovery.2 (by decide +kernel)
    · rw [htarget]
      exact Or.inl (by decide +kernel)
  · intro file value hfile hd hapart
    obtain ⟨rfl, h | h⟩ := hdirectives file _ hfile hd
    · cases h
    · obtain ⟨-, rfl⟩ := Prod.mk.inj h
      exact hapart.2.1 htarget
  · rcases pgTree_plainFiles hfile with rfl | rfl
    · exact List.mem_cons_self
    · exact List.mem_cons_of_mem _ List.mem_cons_self

/-- The only include of the recovery file is in a hidden file of a directory. -/
def hiddenFiles : Files where
  fs := FileTree.ofNodes [⟨[], .dir⟩, ⟨["pg"], .dir⟩,
    ⟨["pg", "postgresql.conf"], .file 0 (asciiBytes "include_dir 'conf.d'\n")⟩,
    ⟨["pg", "conf.d"], .dir⟩,
    ⟨["pg", "conf.d", ".old.conf"], .file 1
      (asciiBytes "include_if_exists '../myrecovery.conf'\n")⟩].toAList 2 (by decide +kernel)
  cwd := []
  cwd_dir := by decide +kernel

end Preflight
end PgAgent
