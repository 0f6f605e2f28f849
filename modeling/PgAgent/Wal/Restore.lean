import PgAgent.Library.FileTree

/-!
# Restoring WAL

`write_restore` writes what a peer streams to the path that `restore_command` was given. The path
must be inside the data directory when all links are resolved. The bytes go to a temporary file
beside the destination, which is renamed when all of them are on disk; if something fails, the
temporary file is removed. The caller may drop the operation at any await, when the peer takes too
long; a call to the file system that is under way is then still made, or not.

* `resolveDestPath_eq` --- what the check of the path lets through;
* `body_cases` --- how the part between the opening and the removal of the temporary file ends;
* `writeRestore_cases` --- how the whole ends;
* `restoreSafe_iff` --- when it is all or nothing. Nothing removes the temporary file when the
  operation is dropped.

Nobody else changes the tree meanwhile.
-/

namespace PgAgent
namespace WalStore

open Unix

/-- `WalStoreError`, as far as `write_restore` returns it. -/
inductive WalStoreError
  | destOutsidePgData
  | io (e : FileTree.IoError)
  | other (message : String)
  deriving DecidableEq, Repr

/-- `FileWalStore`. -/
structure FileWalStore where
  pgDataDir : Path
  deriving DecidableEq, Repr

/-! ## Awaits -/

/-- What comes of an await of a call to the file system: it is made, it fails, or the caller drops
the operation meanwhile and the call is still made or not. -/
inductive Poll
  | ready
  | failed (e : FileTree.IoError)
  | dropped (ran : Bool)
  deriving DecidableEq, Repr

/-- What comes of the copy; if it does not come to its end, so many bytes have been written. -/
inductive CopyPoll
  | ready
  | failed (written : ℕ) (e : FileTree.IoError)
  | dropped (written : ℕ)
  deriving DecidableEq, Repr

/-- The awaits of `write_restore`, and the random part of the name. -/
structure Awaits where
  parent : Poll
  root : Poll
  suffix : Except String Name
  create : Poll
  copy : CopyPoll
  sync : Poll
  rename : Poll
  remove : Poll

/-- What is read from the peer: chunks, and then the end or an error. -/
structure Source where
  chunks : List (List UInt8)
  error : Option FileTree.IoError

def Source.bytes (src : Source) : List UInt8 := src.chunks.flatten

inductive Outcome (α : Type)
  | ok (a : α)
  | err (e : WalStoreError)
  | dropped
  deriving DecidableEq, Repr

/-- An operation on the tree. -/
def Restore (α : Type) := FileTree → Outcome α × FileTree

instance : Monad Restore where
  pure a := fun fs => (.ok a, fs)
  bind m f := fun fs =>
    match m fs with
    | (.ok a, fs) => f a fs
    | (.err e, fs) => (.err e, fs)
    | (.dropped, fs) => (.dropped, fs)

def fail {α : Type} (e : WalStoreError) : Restore α := fun fs => (.err e, fs)

/-- A call that changes the tree. -/
def blocking (poll : Poll) (op : FileTree → Except FileTree.IoError FileTree) : Restore Unit :=
  fun fs =>
    match poll, op fs with
    | .ready, .ok fs' => (.ok (), fs')
    | .ready, .error e => (.err (.io e), fs)
    | .failed e, _ => (.err (.io e), fs)
    | .dropped true, .ok fs' => (.dropped, fs')
    | .dropped _, _ => (.dropped, fs)

/-- `canonicalize`, every error of which is `DestOutsidePgData`. -/
def canonicalize (poll : Poll) (cwd : RealPath) (p : Path) : Restore RealPath := fun fs =>
  match poll, fs.canonicalize cwd p with
  | .ready, some r => (.ok r, fs)
  | .ready, none => (.err .destOutsidePgData, fs)
  | .failed _, _ => (.err .destOutsidePgData, fs)
  | .dropped _, _ => (.dropped, fs)

/-! ## The operation -/

/-- The path in front of its resolution: a relative one is relative to the data directory. -/
def absolutePath (store : FileWalStore) (dest : Path) : Path :=
  if dest.absolute then dest else store.pgDataDir.join dest

/-- `resolve_dest_path`: the directory and the name of the destination. -/
def resolveDestPath (store : FileWalStore) (cwd : RealPath) (aw : Awaits) (dest : Path) :
    Restore (RealPath × Name) :=
  match (absolutePath store dest).parent, (absolutePath store dest).fileName with
  | some parent, some base => do
    let parentCanonical ← canonicalize aw.parent cwd parent
    let pgRootCanonical ← canonicalize aw.root cwd store.pgDataDir
    if pgRootCanonical.isPrefixOf parentCanonical then pure (parentCanonical, base)
    else fail .destOutsidePgData
  | _, _ => fail .destOutsidePgData

def randomHexSuffix (aw : Awaits) : Restore Name :=
  match aw.suffix with
  | .ok suffix => pure suffix
  | .error message => fail (.other message)

def tmpName (base suffix : Name) : Name := "." ++ base ++ "-" ++ suffix

/-- `copy_buf` from the peer to the temporary file. -/
def copyBuf (poll : CopyPoll) (src : Source) (dir : RealPath) (tmp : Name) :
    Restore Unit := fun fs =>
  match poll, src.error with
  | .ready, none => (.ok (), fs.write dir tmp src.bytes)
  | .ready, some e => (.err (.io e), fs.write dir tmp src.bytes)
  | .failed written e, _ => (.err (.io e), fs.write dir tmp (src.bytes.take written))
  | .dropped written, _ => (.dropped, fs.write dir tmp (src.bytes.take written))

/-- The async block of `write_restore`. -/
def body (aw : Awaits) (src : Source) (dir : RealPath) (base tmp : Name) : Restore Unit := do
  copyBuf aw.copy src dir tmp
  -- `sync_all` leaves the tree as it is
  blocking aw.sync fun fs => .ok fs
  blocking aw.rename fun fs => fs.renameFile dir tmp base

/-- The async block, and the removal of the temporary file if it fails. -/
def bodyOrRemove (aw : Awaits) (src : Source) (dir : RealPath) (base tmp : Name) : Restore Unit :=
  fun fs =>
    match body aw src dir base tmp fs with
    | (.err e, fs) =>
      -- the result of the removal is ignored
      match blocking aw.remove (fun fs => fs.removeFile (dir ++ [tmp])) fs with
      | (.dropped, fs) => (.dropped, fs)
      | (_, fs) => (.err e, fs)
    | other => other

/-- `write_restore`, once the name of the temporary file is chosen. -/
def writeVia (aw : Awaits) (src : Source) (dir : RealPath) (base tmp : Name) : Restore Unit := do
  blocking aw.create fun fs => fs.createNew dir tmp
  bodyOrRemove aw src dir base tmp

/-- `write_restore`. -/
def writeRestore (store : FileWalStore) (cwd : RealPath) (aw : Awaits) (dest : Path)
    (src : Source) :
    Restore Unit := do
  let (dir, base) ← resolveDestPath store cwd aw dest
  let suffix ← randomHexSuffix aw
  writeVia aw src dir base (tmpName base suffix)

/-! ## What it is for -/

/-- The destination, when all links are resolved. -/
def destination (store : FileWalStore) (cwd : RealPath) (fs : FileTree) (dest : Path) :
    Option (RealPath × Name) :=
  (absolutePath store dest).parent.bind fun parent =>
    (absolutePath store dest).fileName.bind fun base =>
      (fs.canonicalize cwd parent).bind fun dir =>
        (fs.canonicalize cwd store.pgDataDir).bind fun root =>
          if root.isPrefixOf dir then some (dir, base) else none

/-- The place is in a directory that is inside the data directory, when all links are resolved. -/
def Inside (store : FileWalStore) (cwd : RealPath) (fs : FileTree) (p : RealPath) : Prop :=
  ∃ (root dir : RealPath) (n : Name), p = dir ++ [n] ∧
    fs.canonicalize cwd store.pgDataDir = some root ∧
    fs.canonicalize cwd (Path.ofReal dir) = some dir ∧ root <+: dir

/-- The restore is confined, and all or nothing. -/
structure RestoreSafe (store : FileWalStore) (cwd : RealPath) (aw : Awaits) (dest : Path)
    (src : Source) (fs : FileTree) : Prop where
  confined : ∀ p, (writeRestore store cwd aw dest src fs).2.node p ≠ fs.node p →
    Inside store cwd fs p
  all : (writeRestore store cwd aw dest src fs).1 = .ok () →
    src.error = none ∧ ∃ dir base ino, destination store cwd fs dest = some (dir, base) ∧
      (writeRestore store cwd aw dest src fs).2.node (dir ++ [base]) = some (.file ino src.bytes)
  nothing : (writeRestore store cwd aw dest src fs).1 ≠ .ok () →
    ∀ p, (writeRestore store cwd aw dest src fs).2.node p = fs.node p

/-- How the async block ends. -/
inductive BodyEnd
  | completes
  | fails
  | dropped
  deriving DecidableEq, Repr

/-- How the async block ends, by the first of its awaits that is not ready. -/
def bodyEnd (aw : Awaits) (src : Source) (destIsDir : Bool) : BodyEnd :=
  match aw.copy with
  | .dropped _ => .dropped
  | .failed _ _ => .fails
  | .ready =>
    if src.error ≠ none then .fails
    else
      match aw.sync with
      | .dropped _ => .dropped
      | .failed _ => .fails
      | .ready =>
        match aw.rename with
        | .dropped _ => .dropped
        | .failed _ => .fails
        | .ready => if destIsDir then .fails else .completes

/-- The call is made. -/
def Poll.Runs (poll : Poll) : Prop := poll = .ready ∨ poll = .dropped true

/-- If the temporary file is made, the operation is not dropped until the file has been renamed or
removed, and it is removed if something fails. -/
def Uninterrupted (aw : Awaits) (src : Source) (dir : RealPath) (base tmp : Name) (fs : FileTree) :
    Prop :=
  fs.node dir = some .dir → fs.node (dir ++ [tmp]) = none → aw.create.Runs →
    aw.create = .ready ∧
      (bodyEnd aw src (fs.node (dir ++ [base]) = some .dir) = .completes ∨
        bodyEnd aw src (fs.node (dir ++ [base]) = some .dir) = .fails ∧ aw.remove.Runs)

/-- The operation does not come to the temporary file, or is not interrupted from there on. -/
def Undisturbed (store : FileWalStore) (cwd : RealPath) (aw : Awaits) (dest : Path) (src : Source)
    (fs : FileTree) : Prop :=
  ∀ dir base suffix, aw.parent = .ready → aw.root = .ready →
    destination store cwd fs dest = some (dir, base) → aw.suffix = .ok suffix →
    Uninterrupted aw src dir base (tmpName base suffix) fs

section Spec

variable {store : FileWalStore} {cwd : RealPath} {aw : Awaits} {dest : Path} {src : Source}
  {fs : FileTree} {dir : RealPath} {base tmp : Name} {ino : ℕ}

theorem bind_ok {α β : Type} {m : Restore α} {f : α → Restore β} {fs fs' : FileTree} {a : α}
    (h : m fs = (.ok a, fs')) : (m >>= f) fs = f a fs' := by
  show (match m fs with
    | (.ok a, fs) => f a fs
    | (.err e, fs) => (.err e, fs)
    | (.dropped, fs) => (.dropped, fs)) = _
  rw [h]

theorem bind_err {α β : Type} {m : Restore α} {f : α → Restore β} {fs fs' : FileTree}
    {e : WalStoreError} (h : m fs = (.err e, fs')) : (m >>= f) fs = (.err e, fs') := by
  show (match m fs with
    | (.ok a, fs) => f a fs
    | (.err e, fs) => (.err e, fs)
    | (.dropped, fs) => (.dropped, fs)) = _
  rw [h]

theorem bind_dropped {α β : Type} {m : Restore α} {f : α → Restore β} {fs fs' : FileTree}
    (h : m fs = (.dropped, fs')) : (m >>= f) fs = (.dropped, fs') := by
  show (match m fs with
    | (.ok a, fs) => f a fs
    | (.err e, fs) => (.err e, fs)
    | (.dropped, fs) => (.dropped, fs)) = _
  rw [h]

/-! ### The path -/

theorem canonicalize_cases (poll : Poll) (cwd : RealPath) (p : Path) (fs : FileTree) :
    (poll = .ready ∧ ∃ r, fs.canonicalize cwd p = some r ∧
      canonicalize poll cwd p fs = (.ok r, fs)) ∨
    (poll ≠ .ready ∨ fs.canonicalize cwd p = none) ∧
      (canonicalize poll cwd p fs = (.err .destOutsidePgData, fs) ∨
        canonicalize poll cwd p fs = (.dropped, fs)) := by
  unfold canonicalize
  cases poll with
  | ready =>
    cases fs.canonicalize cwd p with
    | some r => exact Or.inl ⟨rfl, r, rfl, rfl⟩
    | none => exact Or.inr ⟨Or.inr rfl, Or.inl rfl⟩
  | failed e => exact Or.inr ⟨Or.inl nofun, Or.inl rfl⟩
  | dropped ran => exact Or.inr ⟨Or.inl nofun, Or.inr rfl⟩

/-- A destination that is found is let through; otherwise the tree stays as it is. -/
theorem resolveDestPath_cases (store : FileWalStore) (cwd : RealPath) (aw : Awaits) (dest : Path)
    (fs : FileTree) :
    (aw.parent = .ready ∧ aw.root = .ready ∧ ∃ r, destination store cwd fs dest = some r ∧
      resolveDestPath store cwd aw dest fs = (.ok r, fs)) ∨
    (∀ r, ¬ (aw.parent = .ready ∧ aw.root = .ready ∧
      destination store cwd fs dest = some r)) ∧
      ((∃ e, resolveDestPath store cwd aw dest fs = (.err e, fs)) ∨
        resolveDestPath store cwd aw dest fs = (.dropped, fs)) := by
  unfold resolveDestPath destination
  cases hparent : (absolutePath store dest).parent with
  | none => exact Or.inr ⟨(fun r h => nomatch h.2.2), Or.inl ⟨_, rfl⟩⟩
  | some parent =>
    cases hbase : (absolutePath store dest).fileName with
    | none => exact Or.inr ⟨(fun r h => nomatch h.2.2), Or.inl ⟨_, rfl⟩⟩
    | some base =>
      rw [Option.bind_some, Option.bind_some]
      dsimp only
      rcases canonicalize_cases aw.parent cwd parent fs with
          ⟨hp, dir, hdir, hrun⟩ | ⟨hno, hrun⟩
      · rw [bind_ok hrun, hdir, Option.bind_some]
        rcases canonicalize_cases aw.root cwd store.pgDataDir fs with
          ⟨hr, root, hroot, hrun⟩ | ⟨hno, hrun⟩
        · rw [bind_ok hrun, hroot, Option.bind_some]
          by_cases hprefix : root.isPrefixOf dir = true
          · rw [if_pos hprefix, if_pos hprefix]
            exact Or.inl ⟨hp, hr, _, rfl, rfl⟩
          · rw [if_neg hprefix, if_neg hprefix]
            exact Or.inr ⟨(fun r h => nomatch h.2.2), Or.inl ⟨_, rfl⟩⟩
        · refine Or.inr ⟨fun r h => ?_, ?_⟩
          · rcases hno with hno | hno
            · exact hno h.2.1
            · rw [hno] at h
              exact nomatch h.2.2
          · rcases hrun with hrun | hrun
            · exact Or.inl ⟨_, bind_err hrun⟩
            · exact Or.inr (bind_dropped hrun)
      · refine Or.inr ⟨fun r h => ?_, ?_⟩
        · rcases hno with hno | hno
          · exact hno h.1
          · rw [hno] at h
            exact nomatch h.2.2
        · rcases hrun with hrun | hrun
          · exact Or.inl ⟨_, bind_err hrun⟩
          · exact Or.inr (bind_dropped hrun)

/-! ### The temporary file -/

/-- The temporary file is there, and nothing else has changed. -/
def Left (dir : RealPath) (tmp : Name) (ino : ℕ) (fs fs' : FileTree) : Prop :=
  ∃ bytes, ∀ q, fs'.node q =
    if q = dir ++ [tmp] then some (.file ino bytes) else fs.node q

/-- The temporary file is at the destination, and nothing else has changed. -/
def Moved (dir : RealPath) (tmp base : Name) (ino : ℕ) (bytes : List UInt8) (fs fs' : FileTree) :
    Prop :=
  ∀ q, fs'.node q = if q = dir ++ [tmp] then none
    else if q = dir ++ [base] then some (.file ino bytes) else fs.node q

theorem place_ne {a b : Name} (h : a ≠ b) : dir ++ [a] ≠ dir ++ [b] := fun heq =>
  h (List.cons.inj (List.append_cancel_left heq)).1

/-- How the async block ends, and what it leaves. -/
theorem body_cases (aw : Awaits) (src : Source) (hne : tmp ≠ base) {old : List UInt8}
    (h : fs.node (dir ++ [tmp]) = some (.file ino old)) :
    (bodyEnd aw src (fs.node (dir ++ [base]) = some .dir) = .completes ∧ src.error = none ∧
      ∃ fs', body aw src dir base tmp fs = (.ok (), fs') ∧
        Moved dir tmp base ino src.bytes fs fs') ∨
    (bodyEnd aw src (fs.node (dir ++ [base]) = some .dir) = .fails ∧
      ∃ e fs', body aw src dir base tmp fs = (.err e, fs') ∧ Left dir tmp ino fs fs') ∨
    bodyEnd aw src (fs.node (dir ++ [base]) = some .dir) = .dropped ∧
      ∃ fs', body aw src dir base tmp fs = (.dropped, fs') ∧
        (Left dir tmp ino fs fs' ∨ Moved dir tmp base ino src.bytes fs fs') := by
  have hleft : ∀ bytes, Left dir tmp ino fs (fs.write dir tmp bytes) := fun bytes =>
    ⟨bytes, FileTree.node_write h bytes⟩
  unfold body bodyEnd
  cases hcopy : aw.copy with
  | dropped written =>
    have hrun : copyBuf (.dropped written) src dir tmp fs =
        (.dropped, fs.write dir tmp (src.bytes.take written)) := rfl
    exact Or.inr (Or.inr ⟨rfl, _, bind_dropped hrun, Or.inl (hleft _)⟩)
  | failed written e =>
    have hrun : copyBuf (.failed written e) src dir tmp fs =
        (.err (.io e), fs.write dir tmp (src.bytes.take written)) := rfl
    exact Or.inr (Or.inl ⟨rfl, _, _, bind_err hrun, hleft _⟩)
  | ready =>
    dsimp only
    cases herror : src.error with
    | some e =>
      have hrun : copyBuf .ready src dir tmp fs =
          (.err (.io e), fs.write dir tmp src.bytes) := by
        unfold copyBuf
        rw [herror]
      exact Or.inr (Or.inl ⟨if_pos (Option.some_ne_none e), _, _, bind_err hrun, hleft _⟩)
    | none =>
      have hrun : copyBuf .ready src dir tmp fs = (.ok (), fs.write dir tmp src.bytes) := by
        unfold copyBuf
        rw [herror]
      rw [bind_ok hrun, if_neg (not_not.mpr rfl)]
      cases hsync : aw.sync with
      | dropped ran =>
        have hdrop : blocking (.dropped ran) (fun fs => .ok fs) (fs.write dir tmp src.bytes) =
            (.dropped, fs.write dir tmp src.bytes) := by
          cases ran <;> rfl
        exact Or.inr (Or.inr ⟨rfl, _, bind_dropped hdrop, Or.inl (hleft _)⟩)
      | failed e =>
        have hfail : blocking (.failed e) (fun fs => .ok fs) (fs.write dir tmp src.bytes) =
            (.err (.io e), fs.write dir tmp src.bytes) := rfl
        exact Or.inr (Or.inl ⟨rfl, _, _, bind_err hfail, hleft _⟩)
      | ready =>
        have hok : blocking .ready (fun fs => .ok fs) (fs.write dir tmp src.bytes) =
            (.ok (), fs.write dir tmp src.bytes) := rfl
        have hwrite := FileTree.node_write h src.bytes
        have htmp : (fs.write dir tmp src.bytes).node (dir ++ [tmp]) =
            some (.file ino src.bytes) := (hwrite _).trans (if_pos rfl)
        have hbase : (fs.write dir tmp src.bytes).node (dir ++ [base]) = fs.node (dir ++ [base]) :=
          (hwrite _).trans (if_neg (place_ne hne.symm))
        rw [bind_ok hok]
        unfold blocking
        dsimp only
        rcases FileTree.renameFile_cases hne htmp with ⟨hdir, hrename⟩ |
            ⟨hdir, fs', hrename, hmoved⟩
        · rw [hrename, ← hbase, hdir]
          cases aw.rename with
          | ready => exact Or.inr (Or.inl ⟨rfl, _, _, rfl, hleft _⟩)
          | failed e => exact Or.inr (Or.inl ⟨rfl, _, _, rfl, hleft _⟩)
          | dropped ran =>
            cases ran <;> exact Or.inr (Or.inr ⟨rfl, _, rfl, Or.inl (hleft _)⟩)
        · have hmoved' : Moved dir tmp base ino src.bytes fs fs' := by
            intro q
            rw [hmoved, hwrite]
            by_cases hq : q = dir ++ [tmp]
            · rw [if_pos hq, if_pos hq]
            · rw [if_neg hq, if_neg hq, if_neg hq]
          rw [hrename, ← hbase, decide_eq_false hdir]
          cases aw.rename with
          | ready => exact Or.inl ⟨rfl, rfl, _, rfl, hmoved'⟩
          | failed e => exact Or.inr (Or.inl ⟨rfl, _, _, rfl, hleft _⟩)
          | dropped ran =>
            cases ran with
            | false => exact Or.inr (Or.inr ⟨rfl, _, rfl, Or.inl (hleft _)⟩)
            | true => exact Or.inr (Or.inr ⟨rfl, _, rfl, Or.inr hmoved'⟩)

/-- How the async block ends with the removal, and what is left. -/
theorem bodyOrRemove_cases (aw : Awaits) (src : Source) (hne : tmp ≠ base) {old : List UInt8}
    (h : fs.node (dir ++ [tmp]) = some (.file ino old)) :
    (bodyEnd aw src (fs.node (dir ++ [base]) = some .dir) = .completes ∧ src.error = none ∧
      ∃ fs', bodyOrRemove aw src dir base tmp fs = (.ok (), fs') ∧
        Moved dir tmp base ino src.bytes fs fs') ∨
    ((bodyEnd aw src (fs.node (dir ++ [base]) = some .dir) = .fails ∧ aw.remove.Runs) ∧
      ∃ o fs', bodyOrRemove aw src dir base tmp fs = (o, fs') ∧ o ≠ .ok () ∧
        ∀ q, fs'.node q = if q = dir ++ [tmp] then none else fs.node q) ∨
    ¬ (bodyEnd aw src (fs.node (dir ++ [base]) = some .dir) = .completes ∨
        bodyEnd aw src (fs.node (dir ++ [base]) = some .dir) = .fails ∧ aw.remove.Runs) ∧
      ∃ o fs', bodyOrRemove aw src dir base tmp fs = (o, fs') ∧ o ≠ .ok () ∧
        (Left dir tmp ino fs fs' ∨ Moved dir tmp base ino src.bytes fs fs') := by
  unfold bodyOrRemove
  rcases body_cases aw src hne h with ⟨hend, herror, fs₁, hbody, hmoved⟩ |
    ⟨hend, e, fs₁, hbody, bytes, hbytes⟩ | ⟨hend, fs₁, hbody, hleft⟩
  · rw [hbody, hend]
    exact Or.inl ⟨rfl, herror, fs₁, rfl, hmoved⟩
  · have hfile : fs₁.node (dir ++ [tmp]) = some (.file ino bytes) :=
      (hbytes _).trans (if_pos rfl)
    obtain ⟨fs₂, hremove⟩ := FileTree.exists_removeFile hfile
    have hgone : ∀ q, fs₂.node q = if q = dir ++ [tmp] then none else fs.node q := by
      intro q
      rw [FileTree.node_removeFile hremove, hbytes]
      split <;> rfl
    rw [hbody, hend]
    unfold blocking
    dsimp only
    rw [hremove]
    rcases aw.remove with - | e' | ran
    · exact Or.inr (Or.inl ⟨⟨rfl, Or.inl rfl⟩, _, _, rfl, nofun, hgone⟩)
    · refine Or.inr (Or.inr ⟨?_, _, _, rfl, nofun, Or.inl ⟨bytes, hbytes⟩⟩)
      rintro (hend | ⟨-, hruns | hruns⟩)
      · cases hend
      · cases hruns
      · cases hruns
    · cases ran with
      | true => exact Or.inr (Or.inl ⟨⟨rfl, Or.inr rfl⟩, _, _, rfl, nofun, hgone⟩)
      | false =>
        refine Or.inr (Or.inr ⟨?_, _, _, rfl, nofun, Or.inl ⟨bytes, hbytes⟩⟩)
        rintro (hend | ⟨-, hruns | hruns⟩)
        · cases hend
        · cases hruns
        · cases hruns
  · rw [hbody, hend]
    refine Or.inr (Or.inr ⟨?_, _, fs₁, rfl, nofun, hleft⟩)
    rintro (hend | ⟨hend, -⟩)
    · cases hend
    · cases hend

/-- How the operation ends once the name is chosen: nothing has changed, or all has been written,
or it was interrupted and something is left. -/
theorem writeVia_cases (aw : Awaits) (src : Source) (dir : RealPath) (hne : tmp ≠ base)
    (fs : FileTree) :
    (Uninterrupted aw src dir base tmp fs ∧
      ∃ o fs', writeVia aw src dir base tmp fs = (o, fs') ∧ o ≠ .ok () ∧
        ∀ q, fs'.node q = fs.node q) ∨
    (Uninterrupted aw src dir base tmp fs ∧ fs.node dir = some .dir ∧ src.error = none ∧
      ∃ fs', writeVia aw src dir base tmp fs = (.ok (), fs') ∧
        ∀ q, fs'.node q =
          if q = dir ++ [base] then some (.file fs.next src.bytes) else fs.node q) ∨
    ¬ Uninterrupted aw src dir base tmp fs ∧ fs.node dir = some .dir ∧
      ∃ o fs', writeVia aw src dir base tmp fs = (o, fs') ∧ o ≠ .ok () ∧
        (∃ q, fs'.node q ≠ fs.node q) ∧
        ∀ q, fs'.node q ≠ fs.node q → ∃ n, q = dir ++ [n] := by
  unfold writeVia Uninterrupted
  cases hcreate : fs.createNew dir tmp with
  | error e =>
    have hno : fs.node dir = some .dir → fs.node (dir ++ [tmp]) ≠ none := by
      intro hdir hfree
      obtain ⟨fs', hfs'⟩ := FileTree.exists_createNew hdir hfree
      rw [hcreate] at hfs'
      cases hfs'
    refine Or.inl ⟨fun hdir hfree => absurd hfree (hno hdir), ?_⟩
    have hrun : (∃ e, blocking aw.create (fun fs => fs.createNew dir tmp) fs = (.err e, fs)) ∨
        blocking aw.create (fun fs => fs.createNew dir tmp) fs = (.dropped, fs) := by
      unfold blocking
      dsimp only
      rw [hcreate]
      cases aw.create with
      | ready => exact Or.inl ⟨_, rfl⟩
      | failed e => exact Or.inl ⟨_, rfl⟩
      | dropped ran => cases ran <;> exact Or.inr rfl
    rcases hrun with ⟨e, hrun⟩ | hrun
    · exact ⟨_, _, bind_err hrun, nofun, fun q => rfl⟩
    · exact ⟨_, _, bind_dropped hrun, nofun, fun q => rfl⟩
  | ok fs₁ =>
    obtain ⟨hdir, hfree, hnode⟩ := FileTree.node_createNew hcreate
    have htmp : fs₁.node (dir ++ [tmp]) = some (.file fs.next []) := (hnode _).trans (if_pos rfl)
    have hbase : fs₁.node (dir ++ [base]) = fs.node (dir ++ [base]) :=
      (hnode _).trans (if_neg (place_ne hne.symm))
    -- a tree with the temporary file in it has changed there
    have hstays : ∀ {o : Outcome Unit} {fs₂ : FileTree}, o ≠ .ok () →
        Left dir tmp fs.next fs fs₂ →
        o ≠ .ok () ∧ (∃ q, fs₂.node q ≠ fs.node q) ∧
          ∀ q, fs₂.node q ≠ fs.node q → ∃ n, q = dir ++ [n] := by
      rintro o fs₂ ho ⟨bytes, hbytes⟩
      refine ⟨ho, ⟨dir ++ [tmp], ?_⟩, fun q hq => ⟨tmp, ?_⟩⟩
      · rw [hbytes, if_pos rfl, hfree]
        exact nofun
      · by_contra hother
        exact hq ((hbytes q).trans (if_neg hother))
    have hblocking : ∀ poll : Poll, blocking poll (fun fs => fs.createNew dir tmp) fs =
        match poll with
        | .ready => (.ok (), fs₁)
        | .failed e => (.err (.io e), fs)
        | .dropped true => (.dropped, fs₁)
        | .dropped false => (.dropped, fs) := by
      intro poll
      unfold blocking
      dsimp only
      rw [hcreate]
      rcases poll with - | e | ran
      · rfl
      · rfl
      · cases ran <;> rfl
    cases aw.create with
    | failed e =>
      refine Or.inl ⟨fun _ _ hruns => ?_, _, _, bind_err (hblocking _), nofun, fun q => rfl⟩
      rcases hruns with hruns | hruns <;> cases hruns
    | dropped ran =>
      cases ran with
      | false =>
        refine Or.inl ⟨fun _ _ hruns => ?_, _, _, bind_dropped (hblocking _),
          nofun, fun q => rfl⟩
        rcases hruns with hruns | hruns <;> cases hruns
      | true =>
        refine Or.inr (Or.inr ⟨fun hquiet => ?_, hdir, _, _, bind_dropped (hblocking _),
          hstays nofun ⟨[], hnode⟩⟩)
        exact nomatch (hquiet hdir hfree (Or.inr rfl)).1
    | ready =>
      rw [bind_ok (hblocking .ready)]
      have hcases := bodyOrRemove_cases aw src hne htmp
      rw [hbase] at hcases
      rcases hcases with ⟨hend, herror, fs₂, hrun, hmoved⟩ |
        ⟨hend, o, fs₂, hrun, ho, hgone⟩ | ⟨hend, o, fs₂, hrun, ho, hl⟩
      · refine Or.inr (Or.inl ⟨fun _ _ _ => ⟨rfl, Or.inl hend⟩, hdir, herror, fs₂, hrun,
          fun q => ?_⟩)
        rw [hmoved, hnode]
        by_cases hq : q = dir ++ [tmp]
        · rw [if_pos hq, hq, if_neg (place_ne hne), hfree]
        · rw [if_neg hq, if_neg hq]
      · refine Or.inl ⟨fun _ _ _ => ⟨rfl, Or.inr hend⟩, o, fs₂, hrun, ho, fun q => ?_⟩
        rw [hgone, hnode]
        by_cases hq : q = dir ++ [tmp]
        · rw [if_pos hq, hq, hfree]
        · rw [if_neg hq, if_neg hq]
      · refine Or.inr
          (Or.inr ⟨fun hquiet => hend (hquiet hdir hfree (Or.inl rfl)).2, hdir, o, fs₂,
          hrun, ?_⟩)
        rcases hl with ⟨bytes, hbytes⟩ | hmoved
        · refine hstays ho ⟨bytes, fun q => ?_⟩
          rw [hbytes, hnode]
          split <;> rfl
        · refine ⟨ho, ⟨dir ++ [base], ?_⟩, fun q hq => ?_⟩
          · -- the file at the destination is a new one
            rw [hmoved, if_neg (place_ne hne.symm), if_pos rfl]
            intro hsame
            exact absurd (fs.ino_lt_next hsame.symm) (lt_irrefl _)
          · by_cases htmp' : q = dir ++ [tmp]
            · exact ⟨tmp, htmp'⟩
            · refine ⟨base, ?_⟩
              by_contra hother
              rw [hmoved, hnode, if_neg htmp', if_neg hother, if_neg htmp'] at hq
              exact hq rfl

/-! ### The whole -/

theorem tmpName_ne (base suffix : Name) : tmpName base suffix ≠ base := by
  intro h
  have hlength := congrArg String.length h
  have hdot : ".".length = 1 := by decide
  unfold tmpName at hlength
  rw [String.length_append, String.length_append, String.length_append, hdot] at hlength
  omega

/-- The operation has come to the temporary file. -/
structure Chosen (store : FileWalStore) (cwd : RealPath) (aw : Awaits) (dest : Path) (fs : FileTree)
    (dir : RealPath) (base suffix : Name) : Prop where
  parent : aw.parent = .ready
  root : aw.root = .ready
  destination : destination store cwd fs dest = some (dir, base)
  suffix : aw.suffix = .ok suffix

theorem Chosen.writeRestore_eq {suffix : Name} (h : Chosen store cwd aw dest fs dir base suffix)
    (src : Source) :
    writeRestore store cwd aw dest src fs = writeVia aw src dir base (tmpName base suffix) fs := by
  have hresolve : resolveDestPath store cwd aw dest fs = (.ok (dir, base), fs) := by
    rcases resolveDestPath_cases store cwd aw dest fs with ⟨-, -, r, hr, hrun⟩ | ⟨hno, -⟩
    · obtain rfl := Option.some.inj (h.destination.symm.trans hr)
      exact hrun
    · exact absurd ⟨h.parent, h.root, h.destination⟩ (hno (dir, base))
  have hrandom : randomHexSuffix aw fs = (.ok suffix, fs) := by
    unfold randomHexSuffix
    rw [h.suffix]
    rfl
  unfold writeRestore
  rw [bind_ok hresolve]
  exact bind_ok hrandom

theorem writeRestore_early (h : ∀ dir base suffix, ¬ Chosen store cwd aw dest fs dir base suffix)
    (src : Source) : ∃ o, writeRestore store cwd aw dest src fs = (o, fs) ∧ o ≠ .ok () := by
  unfold writeRestore
  rcases resolveDestPath_cases store cwd aw dest fs with
    ⟨hparent, hroot, ⟨dir, base⟩, hr, hrun⟩ | ⟨-, ⟨e, hrun⟩ | hrun⟩
  · rw [bind_ok hrun]
    cases hsuffix : aw.suffix with
    | ok suffix => exact absurd ⟨hparent, hroot, hr, hsuffix⟩ (h dir base suffix)
    | error message =>
      have hrandom : randomHexSuffix aw fs = (.err (.other message), fs) := by
        unfold randomHexSuffix
        rw [hsuffix]
        rfl
      exact ⟨_, bind_err hrandom, nofun⟩
  · exact ⟨_, bind_err hrun, nofun⟩
  · exact ⟨_, bind_dropped hrun, nofun⟩

theorem Chosen.undisturbed_iff {suffix : Name} (h : Chosen store cwd aw dest fs dir base suffix) :
    Undisturbed store cwd aw dest src fs ↔
      Uninterrupted aw src dir base (tmpName base suffix) fs := by
  constructor
  · exact fun hu => hu dir base suffix h.parent h.root h.destination h.suffix
  · intro hu dir' base' suffix' _ _ hdest hsuffix
    obtain ⟨rfl, rfl⟩ := Prod.mk.inj (Option.some.inj (h.destination.symm.trans hdest))
    obtain rfl := Except.ok.inj (h.suffix.symm.trans hsuffix)
    exact hu

/-- A place beside the destination is inside the data directory. -/
theorem Chosen.inside {suffix n : Name} (h : Chosen store cwd aw dest fs dir base suffix)
    (hdir : fs.node dir = some .dir) : Inside store cwd fs (dir ++ [n]) := by
  have hdest := h.destination
  unfold WalStore.destination at hdest
  simp only [Option.bind_eq_some_iff, Option.ite_none_right_eq_some, Option.some.injEq,
    Prod.mk.injEq] at hdest
  obtain ⟨parent, -, base', -, dir', -, root, hroot, hprefix, rfl, rfl⟩ := hdest
  exact ⟨root, dir', n, rfl, hroot, FileTree.canonicalize_ofReal hdir,
    List.isPrefixOf_iff_prefix.mp hprefix⟩

/-- How the whole ends: nothing has changed, or all has been written, or the operation was disturbed
and something is left, inside the data directory. -/
theorem writeRestore_cases (store : FileWalStore) (cwd : RealPath) (aw : Awaits) (dest : Path)
    (src : Source) (fs : FileTree) :
    (Undisturbed store cwd aw dest src fs ∧
      ∃ o fs', writeRestore store cwd aw dest src fs = (o, fs') ∧ o ≠ .ok () ∧
        ∀ q, fs'.node q = fs.node q) ∨
    (Undisturbed store cwd aw dest src fs ∧ src.error = none ∧
      ∃ dir base fs', writeRestore store cwd aw dest src fs = (.ok (), fs') ∧
        destination store cwd fs dest = some (dir, base) ∧ Inside store cwd fs (dir ++ [base]) ∧
        ∀ q, fs'.node q =
          if q = dir ++ [base] then some (.file fs.next src.bytes) else fs.node q) ∨
    ¬ Undisturbed store cwd aw dest src fs ∧
      ∃ o fs', writeRestore store cwd aw dest src fs = (o, fs') ∧ o ≠ .ok () ∧
        (∃ q, fs'.node q ≠ fs.node q) ∧
        ∀ q, fs'.node q ≠ fs.node q → Inside store cwd fs q := by
  by_cases hchosen : ∃ dir base suffix, Chosen store cwd aw dest fs dir base suffix
  · obtain ⟨dir, base, suffix, h⟩ := hchosen
    rw [h.undisturbed_iff, h.writeRestore_eq]
    rcases writeVia_cases aw src dir (tmpName_ne base suffix) fs with
      hnothing | ⟨hquiet, hdir, herror, fs', hrun, hnode⟩ |
      ⟨hloud, hdir, o, fs', hrun, ho, hchanged, hbeside⟩
    · exact Or.inl hnothing
    · exact Or.inr
        (Or.inl ⟨hquiet, herror, dir, base, fs', hrun, h.destination, h.inside hdir, hnode⟩)
    · refine Or.inr (Or.inr ⟨hloud, o, fs', hrun, ho, hchanged, fun q hq => ?_⟩)
      obtain ⟨n, rfl⟩ := hbeside q hq
      exact h.inside hdir
  · have hnone : ∀ dir base suffix, ¬ Chosen store cwd aw dest fs dir base suffix :=
      fun dir base suffix h => hchosen ⟨dir, base, suffix, h⟩
    obtain ⟨o, heq, ho⟩ := writeRestore_early hnone src
    refine Or.inl ⟨fun dir base suffix hparent hroot hdest hsuffix => ?_, o, fs, heq,
      ho, fun q => rfl⟩
    exact absurd ⟨hparent, hroot, hdest, hsuffix⟩ (hnone dir base suffix)

/-- Disturbed or not, only files inside the data directory are changed. -/
theorem writeRestore_confined (store : FileWalStore) (cwd : RealPath) (aw : Awaits) (dest : Path)
    (src : Source) (fs : FileTree) (p : RealPath)
    (h : (writeRestore store cwd aw dest src fs).2.node p ≠ fs.node p) :
    Inside store cwd fs p := by
  rcases writeRestore_cases store cwd aw dest src fs with
    ⟨-, o, fs', heq, -, hsame⟩ | ⟨-, -, dir, base, fs', heq, -, hinside, hnode⟩ |
    ⟨-, o, fs', heq, -, -, hinside⟩
  · rw [heq] at h
    exact absurd (hsame p) h
  · rw [heq] at h
    by_cases hplace : p = dir ++ [base]
    · rw [hplace]
      exact hinside
    · exact absurd ((hnode p).trans (if_neg hplace)) h
  · rw [heq] at h
    exact hinside p h

end Spec

/-- The restore is confined, and all or nothing, unless the operation is interrupted while its
temporary file is there, or the file cannot be removed after something failed. -/
theorem restoreSafe_iff (store : FileWalStore) (cwd : RealPath) (aw : Awaits) (dest : Path)
    (src : Source) (fs : FileTree) :
    RestoreSafe store cwd aw dest src fs ↔ Undisturbed store cwd aw dest src fs := by
  have hconfined := writeRestore_confined store cwd aw dest src fs
  rcases writeRestore_cases store cwd aw dest src fs with
    ⟨hquiet, o, fs', heq, ho, hsame⟩ |
      ⟨hquiet, herror, dir, base, fs', heq, hdest, -, hnode⟩ |
    ⟨hloud, o, fs', heq, ho, ⟨q, hq⟩, -⟩
  · refine iff_of_true ⟨hconfined, fun hok => ?_, fun _ => ?_⟩ hquiet
    · rw [heq] at hok
      exact absurd hok ho
    · rw [heq]
      exact hsame
  · refine iff_of_true ⟨hconfined, fun _ => ⟨herror, dir, base, fs.next, hdest, ?_⟩,
      fun hnot => ?_⟩
      hquiet
    · rw [heq]
      exact (hnode _).trans (if_pos rfl)
    · rw [heq] at hnot
      exact absurd rfl hnot
  · refine iff_of_false (fun hsafe => ?_) hloud
    have hnothing := hsafe.nothing
    rw [heq] at hnothing
    exact hq (hnothing ho q)

/-- A data directory `/data` with its `pg_wal`. -/
def dataTree : FileTree :=
  FileTree.ofNodes [⟨[], .dir⟩, ⟨["data"], .dir⟩, ⟨["data", "pg_wal"], .dir⟩].toAList 0
    (by decide +kernel)

/-- The peer takes too long in the middle of the copy: three bytes of the segment stay in the
temporary file. -/
theorem restoreSafe_timeout :
    ¬ ∀ (store : FileWalStore) (cwd : RealPath) (aw : Awaits) (dest : Path) (src : Source)
      (fs : FileTree), RestoreSafe store cwd aw dest src fs := by
  intro h
  have hsafe := h ⟨⟨true, [.normal "data"]⟩⟩ []
    { parent := .ready, root := .ready, suffix := .ok "0a1b2c3d", create := .ready,
      copy := .dropped 3, sync := .ready, rename := .ready, remove := .ready }
    ⟨false, [.normal "pg_wal", .normal "000000010000000000000001"]⟩
    ⟨[[1, 2, 3, 4, 5]], none⟩ dataTree
  have hnothing := hsafe.nothing (by decide +kernel)
    ["data", "pg_wal", ".000000010000000000000001-0a1b2c3d"]
  exact absurd hnothing (by decide +kernel)

end WalStore
end PgAgent
