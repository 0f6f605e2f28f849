import PgAgent.Config.Pool
import PgAgent.Library.Hexadecimal
import PgAgent.Library.Spacing
import PgAgent.Library.Utf8
import PgAgent.Ops.Handoff
import PgAgent.Timeline.History
import PgAgent.Wal.Fetch

/-!
# Restoring WAL from the pool

PostgreSQL asks for a file through `restore_command`.  The agent asks the other members of the pool
one after the other, in the order of the pool, and writes what the first of them serves.  A history
file is read before it is written, since it decides which timeline PostgreSQL follows.  Every member
has 30 seconds; then its attempt is dropped, wherever it is, and the next member is asked.  A member
whose call failed or took too long is left out for 10 seconds.

* `writeRestore_intact` --- an attempt that is dropped or fails leaves no torn file under the name
  of a segment;
* `restoreWal_intact` --- nor do all attempts together, and what they leave is what a member served;
* `restoreWal_serves` --- that is the file in that member's archive, to its end;
* `failures_spaced` --- how often the same member is waited for in vain.
-/

namespace PgAgent
namespace RestoreWal

open Rust Unix Peer WalStore Timeline

/-! ## No torn file -/

section Intact

variable {store : FileWalStore} {cwd : RealPath} {aw : Awaits} {dest : Path} {src : Source}
  {fs fs' : FileTree} {dir : RealPath} {base tmp : Name} {ino : ℕ}

/-- Beside the temporary file at most the destination has changed, and it then holds all that was to
be read. -/
def Intact (dir : RealPath) (base tmp : Name) (src : Source) (fs fs' : FileTree) : Prop :=
  ∀ q, q = dir ++ [tmp] ∨ fs'.node q = fs.node q ∨
    q = dir ++ [base] ∧ src.error = none ∧ ∃ ino, fs'.node q = some (.file ino src.bytes)

theorem Intact.refl : Intact dir base tmp src fs fs := fun _ => Or.inr (Or.inl rfl)

/-- A step that touches the temporary file only. -/
theorem Intact.of_eq (h : ∀ q, q ≠ dir ++ [tmp] → fs'.node q = fs.node q) :
    Intact dir base tmp src fs fs' := by
  intro q
  by_cases hq : q = dir ++ [tmp]
  · exact Or.inl hq
  · exact Or.inr (Or.inl (h q hq))

theorem Intact.trans {fs₁ : FileTree} (h₁ : Intact dir base tmp src fs fs₁)
    (h₂ : Intact dir base tmp src fs₁ fs') : Intact dir base tmp src fs fs' := by
  intro q
  rcases h₂ q with htmp | hsame | hdest
  · exact Or.inl htmp
  · rcases h₁ q with htmp | hsame' | ⟨hq, herror, ino, hfile⟩
    · exact Or.inl htmp
    · exact Or.inr (Or.inl (hsame.trans hsame'))
    · exact Or.inr (Or.inr ⟨hq, herror, ino, hsame.trans hfile⟩)
  · exact Or.inr (Or.inr hdest)

theorem intact_of_left (h : Left dir tmp ino fs fs') : Intact dir base tmp src fs fs' := by
  obtain ⟨bytes, hnode⟩ := h
  exact .of_eq fun q hq => (hnode q).trans (if_neg hq)

theorem intact_of_moved (herror : src.error = none) (h : Moved dir tmp base ino src.bytes fs fs') :
    Intact dir base tmp src fs fs' := by
  intro q
  have hnode := h q
  split at hnode
  · next hq => exact Or.inl hq
  · split at hnode
    · next hq => exact Or.inr (Or.inr ⟨hq, herror, ino, hnode⟩)
    · exact Or.inr (Or.inl hnode)

/-- The async block leaves no torn file: it comes to the renaming only with all the bytes. -/
theorem body_intact (hne : tmp ≠ base) {old : List UInt8}
    (h : fs.node (dir ++ [tmp]) = some (.file ino old)) :
    Intact dir base tmp src fs (body aw src dir base tmp fs).2 := by
  rcases herror : src.error with _ | e
  · rcases body_cases aw src hne h with ⟨-, -, fs₁, hbody, hmoved⟩ |
      ⟨-, e, fs₁, hbody, hleft⟩ | ⟨-, fs₁, hbody, hleft | hmoved⟩
    · rw [hbody]
      exact intact_of_moved herror hmoved
    · rw [hbody]
      exact intact_of_left hleft
    · rw [hbody]
      exact intact_of_left hleft
    · rw [hbody]
      exact intact_of_moved herror hmoved
  · have hwrite : ∀ bytes, Intact dir base tmp src fs (fs.write dir tmp bytes) := fun bytes =>
      intact_of_left ⟨bytes, FileTree.node_write h bytes⟩
    unfold body
    rcases hcopy : aw.copy with _ | ⟨written, e'⟩ | written
    · have hrun : copyBuf .ready src dir tmp fs = (.err (.io e), fs.write dir tmp src.bytes) := by
        unfold copyBuf
        rw [herror]
      rw [bind_err hrun]
      exact hwrite _
    · have hrun : copyBuf (.failed written e') src dir tmp fs =
          (.err (.io e'), fs.write dir tmp (src.bytes.take written)) := rfl
      rw [bind_err hrun]
      exact hwrite _
    · have hrun : copyBuf (.dropped written) src dir tmp fs =
          (.dropped, fs.write dir tmp (src.bytes.take written)) := rfl
      rw [bind_dropped hrun]
      exact hwrite _

/-- A call that is made or not. -/
theorem blocking_cases (poll : Poll) (op : FileTree → Except FileTree.IoError FileTree)
    (fs : FileTree) :
    (blocking poll op fs).2 = fs ∧ (blocking poll op fs).1 ≠ .ok () ∨
      op fs = .ok (blocking poll op fs).2 := by
  unfold blocking
  rcases hop : op fs with e | fs₁
  · rcases poll with _ | _ | (_ | _)
    all_goals exact Or.inl ⟨rfl, nofun⟩
  · rcases poll with _ | _ | (_ | _)
    · exact Or.inr rfl
    · exact Or.inl ⟨rfl, nofun⟩
    · exact Or.inl ⟨rfl, nofun⟩
    · exact Or.inr rfl

/-- Nor does the removal of the temporary file. -/
theorem bodyOrRemove_intact (hne : tmp ≠ base) {old : List UInt8}
    (h : fs.node (dir ++ [tmp]) = some (.file ino old)) :
    Intact dir base tmp src fs (bodyOrRemove aw src dir base tmp fs).2 := by
  have hbody : Intact dir base tmp src fs (body aw src dir base tmp fs).2 := body_intact hne h
  unfold bodyOrRemove
  rcases hrun : body aw src dir base tmp fs with ⟨_ | e | _, fs₁⟩
  · rw [hrun] at hbody
    exact hbody
  · rw [hrun] at hbody
    have hremove : Intact dir base tmp src fs₁
        (blocking aw.remove (fun fs => fs.removeFile (dir ++ [tmp])) fs₁).2 := by
      rcases blocking_cases aw.remove (fun fs => fs.removeFile (dir ++ [tmp])) fs₁ with
        ⟨hsame, -⟩ | hremoved
      · rw [hsame]
        exact .refl
      · refine .of_eq fun q hq => ?_
        rw [FileTree.node_removeFile hremoved, if_neg hq]
    rcases hblock : blocking aw.remove (fun fs => fs.removeFile (dir ++ [tmp])) fs₁ with
      ⟨_ | e' | _, fs₂⟩
    all_goals
      rw [hblock] at hremove
      dsimp only
      rw [hblock]
      exact hbody.trans hremove
  · rw [hrun] at hbody
    exact hbody

/-- **An attempt leaves no torn file.** However `write_restore` ends, and wherever it is dropped,
what has changed is a temporary file beside the destination, or the destination itself, which then
holds all that was to be read. -/
theorem writeRestore_intact (store : FileWalStore) (cwd : RealPath) (aw : Awaits) (dest : Path)
    (src : Source) (fs : FileTree) :
    (∀ q, (writeRestore store cwd aw dest src fs).2.node q = fs.node q) ∨
      ∃ dir base suffix, destination store cwd fs dest = some (dir, base) ∧
        Intact dir base (tmpName base suffix) src fs (writeRestore store cwd aw dest src fs).2 := by
  by_cases hchosen : ∃ dir base suffix, Chosen store cwd aw dest fs dir base suffix
  · obtain ⟨dir, base, suffix, h⟩ := hchosen
    refine Or.inr ⟨dir, base, suffix, h.destination, ?_⟩
    rw [h.writeRestore_eq]
    unfold writeVia
    have hcreate : Intact dir base (tmpName base suffix) src fs
        (blocking aw.create (fun fs => fs.createNew dir (tmpName base suffix)) fs).2 := by
      rcases blocking_cases aw.create (fun fs => fs.createNew dir (tmpName base suffix)) fs with
        ⟨hsame, -⟩ | hnew
      · rw [hsame]
        exact .refl
      · refine .of_eq fun q hq => ?_
        rw [(FileTree.node_createNew hnew).2.2, if_neg hq]
    rcases hrun : blocking aw.create (fun fs => fs.createNew dir (tmpName base suffix)) fs with
      ⟨_ | e | _, fs₁⟩
    all_goals rw [hrun] at hcreate
    · rcases blocking_cases aw.create (fun fs => fs.createNew dir (tmpName base suffix)) fs with
        ⟨-, hno⟩ | hnew
      · rw [hrun] at hno
        exact absurd rfl hno
      · rw [hrun] at hnew
        rw [bind_ok hrun]
        have htmp := ((FileTree.node_createNew hnew).2.2 (dir ++ [tmpName base suffix])).trans
          (if_pos rfl)
        exact hcreate.trans (bodyOrRemove_intact (tmpName_ne base suffix) htmp)
    · rw [bind_err hrun]
      exact hcreate
    · rw [bind_dropped hrun]
      exact hcreate
  · obtain ⟨o, heq, -⟩ := writeRestore_early
      (fun dir base suffix h => hchosen ⟨dir, base, suffix, h⟩) src
    refine Or.inl fun q => ?_
    rw [heq]

end Intact

/-! ## Asking one member -/

/-- `MAX_HISTORY_FILE_BYTES`. -/
def maxHistoryFileBytes : ℕ := 2 ^ 20

/-- `RESTORE_WAL_PEER_COOLDOWN`, in nanoseconds. -/
def restoreWalPeerCooldown : ℕ := Duration.ofSecs 10

/-- `str::get(..n)`: the characters of the first `n` bytes. -/
def takeBytes : ℕ → List Char → Option (List Char)
  | 0, _ => some []
  | _ + 1, [] => none
  | n + 1, c :: cs =>
    if c.utf8Size ≤ n + 1 then (takeBytes (n + 1 - c.utf8Size) cs).map (c :: ·) else none

/-- `timeline_of`; a negative number is none of a timeline either. -/
def timelineOf (walFile : String) : Option ℤ :=
  (takeBytes 8 walFile.toList).bind fun head =>
    ((fromStrRadix16 31 head).filter fun t => decide (0 < t)).map fun t => (t : ℤ)

/-- `is_history_file`. -/
def isHistoryFile (walFile : String) : Bool := ".history".toList.isSuffixOf walFile.toList

/-- `FetchOutcome`. -/
inductive FetchOutcome
  | fetched
  | tryNext
  | fatal (s : Status)
  deriving DecidableEq, Repr

/-- What an attempt with a member meets.  Where it is dropped, since its time is over, there is
`none`. -/
structure Attempt where
  /-- The clock at the test of the cooldown, and when the attempt ends. -/
  checked : ℕ
  ended : ℕ
  /-- `peers.client` succeeds. -/
  dial : Option Bool
  setup : Option WalFetch.Setup
  /-- What the stream then carries. -/
  content : Source
  /-- `control_point`, which may fail. -/
  screening : Option (Option ControlPoint)
  awaits : Awaits

/-- What a history file says about the timeline, given the control point. -/
def verdict (walFile : String) (control : Option ControlPoint) (bytes : List UInt8) : Reachable :=
  match timelineOf walFile with
  -- there is nothing to judge the file by
  | none => .unknown
  | some requested =>
    reachable (control.getD ⟨0, 0⟩) requested
      (parseHistory (String.ofList (fromUtf8Lossy bytes)))

/-- `screen_history_file`. -/
def screenHistoryFile (walFile : String) (control : Option ControlPoint) (content : Source) :
    Except FetchOutcome (List UInt8) :=
  -- the cap is reached in front of an error of the stream
  if maxHistoryFileBytes ≤ content.bytes.length then .error .tryNext
  else if content.error ≠ none then .error .tryNext
  else
    match verdict walFile control content.bytes with
    | .yes | .unknown => .ok content.bytes
    | .diverged _ | .notADescendant => .error .tryNext

/-- What is given to `write_restore`; `none` if the attempt is dropped before. -/
def readerOf (walFile : String) (a : Attempt) : Option (Except FetchOutcome Source) :=
  if isHistoryFile walFile then
    a.screening.map fun control =>
      (screenHistoryFile walFile control a.content).map fun bytes => ⟨[bytes], none⟩
  else some (.ok a.content)

section Model

variable (store : FileWalStore) (cwd : RealPath) (walFile : String) (dest : Path)

/-- `write_restore` in an attempt: its outcome, and whether the member is to be left out for a
while. -/
def writeOutcome : Outcome Unit → FetchOutcome × Bool
  | .ok () => (.fetched, false)
  | .err .destOutsidePgData =>
    (.fatal ⟨.invalidArgument, "restore_wal: dest_path outside pg_data_dir"⟩, false)
  | .err _ => (.tryNext, false)
  | .dropped => (.tryNext, true)

/-- `try_fetch_wal_from_peer`: the outcome, whether the member is to be left out for a while, and
the tree. -/
def tryFetchWalFromPeer (a : Attempt) (fs : FileTree) : FetchOutcome × Bool × FileTree :=
  match a.dial with
  | none => (.tryNext, true, fs)
  | some false => (.tryNext, false, fs)
  | some true =>
    match a.setup.map WalFetch.clientFetchWal with
    | none => (.tryNext, true, fs)
    | some (.error _) => (.tryNext, true, fs)
    | some (.ok none) => (.tryNext, false, fs)
    | some (.ok (some _)) =>
      match readerOf walFile a with
      | none => (.tryNext, true, fs)
      | some (.error outcome) => (outcome, false, fs)
      | some (.ok src) =>
        let (o, fs) := writeRestore store cwd a.awaits dest src fs
        ((writeOutcome o).1, (writeOutcome o).2, fs)

/-! ## Asking the pool -/

/-- The local tree, and since when a member is left out: `wal_peer_cooldown`. -/
structure RestoreState where
  fs : FileTree
  cooldown : NodeId → Option ℕ

def inCooldown (s : RestoreState) (id : NodeId) (now : ℕ) : Bool :=
  match s.cooldown id with
  | some since => decide (Instant.durationSince now since < restoreWalPeerCooldown)
  | none => false

/-- The state after an attempt. -/
def afterAttempt (s : RestoreState) (node : NodeConfig) (a : Attempt) : RestoreState where
  fs := (tryFetchWalFromPeer store cwd walFile dest a s.fs).2.2
  cooldown :=
    if (tryFetchWalFromPeer store cwd walFile dest a s.fs).2.1 then
      Function.update s.cooldown node.id (some a.ended)
    else s.cooldown

/-- The loop of `restore_wal`: a message on success. -/
def askMembers (localId : NodeId) (attempts : NodeConfig → Attempt) :
    List NodeConfig → RestoreState → Except Status String × RestoreState
  | [], s => (.error ⟨.notFound, "restore_wal: " ++ walFile ++ " not found on any peer"⟩, s)
  | node :: nodes, s =>
    if node.id = localId ∨ inCooldown s node.id (attempts node).checked = true then
      askMembers localId attempts nodes s
    else
      match (tryFetchWalFromPeer store cwd walFile dest (attempts node) s.fs).1 with
      | .fetched =>
        (.ok ("restored " ++ walFile ++ " from " ++ node.hostname),
          afterAttempt store cwd walFile dest s node (attempts node))
      | .tryNext =>
        askMembers localId attempts nodes
          (afterAttempt store cwd walFile dest s node (attempts node))
      | .fatal st => (.error st, afterAttempt store cwd walFile dest s node (attempts node))

/-- `restore_wal`. -/
def restoreWal (pool : NodePool) (destPath : String) (attempts : NodeConfig → Attempt)
    (s : RestoreState) : Except Status String × RestoreState :=
  if walFile = "" then (.error ⟨.invalidArgument, "restore_wal: wal_file is required"⟩, s)
  else if destPath = "" then
    (.error ⟨.invalidArgument, "restore_wal: dest_path is required"⟩, s)
  else
    match pool.localNode with
    | .error e => (.error ⟨.internal, "restore_wal: resolve local node: " ++ e.display⟩, s)
    | .ok loc =>
      askMembers store cwd walFile (Path.ofText destPath.toList) loc.id attempts pool.members s

end Model

/-! ## What is left in the tree -/

/-- A member has served the file: it answered with a stream, which came to its end, and a history
file is one that may be followed. -/
structure Served (walFile : String) (a : Attempt) : Prop where
  answered : ∃ f, a.setup = some (.answered (.ok f))
  complete : a.content.error = none
  screened : isHistoryFile walFile = true → a.content.bytes.length < maxHistoryFileBytes ∧
    ∃ control, a.screening = some control ∧ (verdict walFile control a.content.bytes = .yes ∨
      verdict walFile control a.content.bytes = .unknown)

/-- A temporary file for the destination. -/
def IsTmp (store : FileWalStore) (dest : Path) (q : RealPath) : Prop :=
  ∃ (dir : RealPath) (base suffix : Name), (absolutePath store dest).fileName = some base ∧
    q = dir ++ [tmpName base suffix]

/-- A file of the destination's name. -/
def IsDest (store : FileWalStore) (dest : Path) (q : RealPath) : Prop :=
  ∃ (dir : RealPath) (base : Name), (absolutePath store dest).fileName = some base ∧
    q = dir ++ [base]

/-- What has changed is a temporary file for the destination, or a file of its name with all that
one of the members served. -/
def Kept (store : FileWalStore) (walFile : String) (dest : Path) (localId : NodeId)
    (attempts : NodeConfig → Attempt) (nodes : List NodeConfig) (fs fs' : FileTree) : Prop :=
  ∀ q, fs'.node q = fs.node q ∨ IsTmp store dest q ∨ IsDest store dest q ∧
    ∃ node ∈ nodes, node.id ≠ localId ∧ Served walFile (attempts node) ∧
      ∃ ino, fs'.node q = some (.file ino (attempts node).content.bytes)

section Kept

variable {store : FileWalStore} {cwd : RealPath} {walFile : String} {dest : Path} {a : Attempt}
  {fs fs' fs₁ : FileTree} {localId : NodeId} {attempts : NodeConfig → Attempt}
  {nodes nodes' : List NodeConfig}

theorem fileName_of_destination {dir : RealPath} {base : Name}
    (h : destination store cwd fs dest = some (dir, base)) :
    (absolutePath store dest).fileName = some base := by
  obtain ⟨parent, -, h⟩ := Option.bind_eq_some_iff.mp h
  obtain ⟨base', hbase, h⟩ := Option.bind_eq_some_iff.mp h
  obtain ⟨dir', -, h⟩ := Option.bind_eq_some_iff.mp h
  obtain ⟨root, -, h⟩ := Option.bind_eq_some_iff.mp h
  split at h
  · rw [hbase, (Prod.mk.inj (Option.some.inj h)).2]
  · cases h

theorem Kept.refl : Kept store walFile dest localId attempts nodes fs fs := fun _ => Or.inl rfl

theorem Kept.trans (h₁ : Kept store walFile dest localId attempts nodes fs fs₁)
    (h₂ : Kept store walFile dest localId attempts nodes fs₁ fs') :
    Kept store walFile dest localId attempts nodes fs fs' := by
  intro q
  rcases h₂ q with hsame | htmp | hserved
  · rcases h₁ q with hsame' | htmp | ⟨hdest, node, hnode, hother, hserved, ino, hfile⟩
    · exact Or.inl (hsame.trans hsame')
    · exact Or.inr (Or.inl htmp)
    · exact Or.inr (Or.inr ⟨hdest, node, hnode, hother, hserved, ino, hsame.trans hfile⟩)
  · exact Or.inr (Or.inl htmp)
  · exact Or.inr (Or.inr hserved)

theorem Kept.mono (h : Kept store walFile dest localId attempts nodes fs fs')
    (hsub : nodes ⊆ nodes') :
    Kept store walFile dest localId attempts nodes' fs fs' := by
  intro q
  rcases h q with hsame | htmp | ⟨hdest, node, hnode, hrest⟩
  · exact Or.inl hsame
  · exact Or.inr (Or.inl htmp)
  · exact Or.inr (Or.inr ⟨hdest, node, hsub hnode, hrest⟩)

/-- What comes to `write_restore` has all the bytes of the content, if it has no error. -/
theorem readerOf_ok {src : Source} (h : readerOf walFile a = some (.ok src)) :
    src.bytes = a.content.bytes ∧
    (src.error = none → ∀ f, a.setup = some (.answered (.ok f)) →
      Served walFile a) := by
  unfold readerOf at h
  split at h
  · next hhistory =>
    obtain ⟨control, hcontrol, hscreen⟩ := Option.map_eq_some_iff.mp h
    unfold screenHistoryFile at hscreen
    split at hscreen
    · cases hscreen
    next hcap =>
    split at hscreen
    · cases hscreen
    next herror =>
    have hlength := not_le.mp hcap
    have hcomplete : a.content.error = none := not_not.mp herror
    split at hscreen
    · next hverdict =>
      obtain rfl := Except.ok.inj hscreen
      refine ⟨List.append_nil _,
        fun _ f hf => ⟨⟨f, hf⟩, hcomplete, fun _ => ⟨hlength, ?_⟩⟩⟩
      exact ⟨control, hcontrol, Or.inl hverdict⟩
    · next hverdict =>
      obtain rfl := Except.ok.inj hscreen
      refine ⟨List.append_nil _,
        fun _ f hf => ⟨⟨f, hf⟩, hcomplete, fun _ => ⟨hlength, ?_⟩⟩⟩
      exact ⟨control, hcontrol, Or.inr hverdict⟩
    · cases hscreen
    · cases hscreen
  · next hhistory =>
    obtain rfl := Except.ok.inj (Option.some.inj h)
    exact ⟨rfl, fun herror f hf =>
      ⟨⟨f, hf⟩, herror, fun htrue => absurd htrue hhistory⟩⟩

theorem answered_of_clientFetchWal {f : WalFetch.Opened}
    (h : a.setup.map WalFetch.clientFetchWal = some (.ok (some f))) :
    a.setup = some (.answered (.ok f)) := by
  obtain ⟨setup, hsetup, hclient⟩ := Option.map_eq_some_iff.mp h
  rw [hsetup]
  rcases setup with (e | f') | _
  · unfold WalFetch.clientFetchWal at hclient
    dsimp only at hclient
    split at hclient
    · cases hclient
    · cases hclient
  · rw [Option.some.inj (Except.ok.inj hclient)]
  · cases hclient

/-- What an attempt comes to: nothing has changed, or a stream was written. -/
theorem tryFetchWalFromPeer_cases (store : FileWalStore) (cwd : RealPath) (walFile : String)
    (dest : Path) (a : Attempt) (fs : FileTree) :
    (∃ o cooled, tryFetchWalFromPeer store cwd walFile dest a fs = (o, cooled, fs) ∧
      o ≠ .fetched) ∨
    ∃ f src, a.setup = some (.answered (.ok f)) ∧ readerOf walFile a = some (.ok src) ∧
      tryFetchWalFromPeer store cwd walFile dest a fs =
        ((writeOutcome (writeRestore store cwd a.awaits dest src fs).1).1,
          (writeOutcome (writeRestore store cwd a.awaits dest src fs).1).2,
          (writeRestore store cwd a.awaits dest src fs).2) := by
  unfold tryFetchWalFromPeer
  rcases a.dial with _ | _ | _
  · exact Or.inl ⟨_, _, rfl, nofun⟩
  · exact Or.inl ⟨_, _, rfl, nofun⟩
  · dsimp only
    rcases hclient : a.setup.map WalFetch.clientFetchWal with _ | e | _ | f
    · exact Or.inl ⟨_, _, rfl, nofun⟩
    · exact Or.inl ⟨_, _, rfl, nofun⟩
    · exact Or.inl ⟨_, _, rfl, nofun⟩
    · dsimp only
      rcases hreader : readerOf walFile a with _ | outcome | src
      · exact Or.inl ⟨_, _, rfl, nofun⟩
      · refine Or.inl ⟨_, _, rfl, ?_⟩
        rintro rfl
        unfold readerOf at hreader
        split at hreader
        · obtain ⟨control, -, hscreen⟩ := Option.map_eq_some_iff.mp hreader
          unfold screenHistoryFile at hscreen
          split at hscreen
          · cases hscreen
          split at hscreen
          · cases hscreen
          split at hscreen
          all_goals cases hscreen
        · cases hreader
      · exact Or.inr ⟨f, src, answered_of_clientFetchWal hclient, rfl, rfl⟩

theorem writeOutcome_eq_fetched {o : Outcome Unit} (h : (writeOutcome o).1 = .fetched) :
    o = .ok () := by
  rcases o with _ | (_ | _ | _) | _
  · rfl
  all_goals cases h

/-- One attempt. -/
theorem tryFetchWalFromPeer_kept {node : NodeConfig} (hother : node.id ≠ localId)
    (fs : FileTree) :
    Kept store walFile dest localId attempts [node] fs
      (tryFetchWalFromPeer store cwd walFile dest (attempts node) fs).2.2 := by
  rcases tryFetchWalFromPeer_cases store cwd walFile dest (attempts node) fs with
      ⟨o, cooled, hrun, -⟩ | ⟨f, src, hsetup, hreader, hrun⟩
  · rw [hrun]
    exact .refl
  · rw [hrun]
    obtain ⟨hbytes, hserved⟩ := readerOf_ok hreader
    rcases writeRestore_intact store cwd (attempts node).awaits dest src fs with
      hsame | ⟨dir, base, suffix, hdest, hintact⟩
    · exact fun q => Or.inl (hsame q)
    · intro q
      have hbase := fileName_of_destination hdest
      rcases hintact q with htmp | hsame | ⟨hq, herror, ino, hfile⟩
      · exact Or.inr (Or.inl ⟨dir, base, suffix, hbase, htmp⟩)
      · exact Or.inl hsame
      · refine Or.inr (Or.inr ⟨⟨dir, base, hbase, hq⟩, node, List.mem_cons_self, hother,
          hserved herror f hsetup, ino, ?_⟩)
        rw [← hbytes]
        exact hfile

/-- An attempt that fetches: the destination holds all that the member served. -/
theorem tryFetchWalFromPeer_fetched {fs : FileTree}
    (h : (tryFetchWalFromPeer store cwd walFile dest a fs).1 = .fetched) :
    Served walFile a ∧ ∃ dir base ino, destination store cwd fs dest = some (dir, base) ∧
      (tryFetchWalFromPeer store cwd walFile dest a fs).2.2.node (dir ++ [base]) =
        some (.file ino a.content.bytes) := by
  rcases tryFetchWalFromPeer_cases store cwd walFile dest a fs with ⟨o, cooled, hrun, ho⟩ |
      ⟨f, src, hsetup, hreader, hrun⟩
  · rw [hrun] at h
    exact absurd h ho
  · rw [hrun] at h ⊢
    obtain ⟨hbytes, hserved⟩ := readerOf_ok hreader
    have hok := writeOutcome_eq_fetched h
    rcases writeRestore_cases store cwd a.awaits dest src fs with ⟨-, o, fs', heq, ho, -⟩ |
      ⟨-, herror, dir, base, fs', heq, hdest, -, hnode⟩ | ⟨-, o, fs', heq, ho, -⟩
    · rw [heq] at hok
      exact absurd hok ho
    · refine ⟨hserved herror f hsetup, dir, base, fs.next, hdest, ?_⟩
      rw [heq, ← hbytes]
      exact (hnode _).trans (if_pos rfl)
    · rw [heq] at hok
      exact absurd hok ho

/-- A member was asked in a tree in which nothing but the like had changed, and the destination now
holds all that it served. -/
def Restored (store : FileWalStore) (cwd : RealPath) (walFile : String) (dest : Path)
    (localId : NodeId) (attempts : NodeConfig → Attempt) (nodes : List NodeConfig)
    (fs fs' : FileTree) (node : NodeConfig) : Prop :=
  node ∈ nodes ∧ node.id ≠ localId ∧ Served walFile (attempts node) ∧
    ∃ fs₁ dir base ino, Kept store walFile dest localId attempts nodes fs fs₁ ∧
      destination store cwd fs₁ dest = some (dir, base) ∧
      fs'.node (dir ++ [base]) = some (.file ino (attempts node).content.bytes)

/-- The loop. -/
theorem askMembers_kept (nodes : List NodeConfig) (s : RestoreState) :
    Kept store walFile dest localId attempts nodes s.fs
        (askMembers store cwd walFile dest localId attempts nodes s).2.fs ∧
      ∀ msg, (askMembers store cwd walFile dest localId attempts nodes s).1 = .ok msg →
        ∃ node, msg = "restored " ++ walFile ++ " from " ++ node.hostname ∧
          Restored store cwd walFile dest localId attempts nodes s.fs
            (askMembers store cwd walFile dest localId attempts nodes s).2.fs node := by
  induction nodes generalizing s with
  | nil => exact ⟨.refl, nofun⟩
  | cons node nodes ih =>
    have hsub : nodes ⊆ node :: nodes := List.subset_cons_self node nodes
    -- what the rest of the loop does, in the tree that it starts in
    have hrest : ∀ s₁ : RestoreState,
        Kept store walFile dest localId attempts (node :: nodes) s.fs s₁.fs →
        Kept store walFile dest localId attempts (node :: nodes) s.fs
            (askMembers store cwd walFile dest localId attempts nodes s₁).2.fs ∧
          ∀ msg, (askMembers store cwd walFile dest localId attempts nodes s₁).1 = .ok msg →
            ∃ n, msg = "restored " ++ walFile ++ " from " ++ n.hostname ∧
              Restored store cwd walFile dest localId attempts (node :: nodes) s.fs
                (askMembers store cwd walFile dest localId attempts nodes s₁).2.fs n := by
      intro s₁ hs₁
      obtain ⟨hkept, hok⟩ := ih s₁
      refine ⟨hs₁.trans (hkept.mono hsub), fun msg hmsg => ?_⟩
      obtain ⟨n, hmsg', hn, hother, hserved, fs₁, dir, base, ino, hfs₁, hdest, hfile⟩ :=
        hok msg hmsg
      exact ⟨n, hmsg', hsub hn, hother, hserved, fs₁, dir, base, ino,
        hs₁.trans (hfs₁.mono hsub),
        hdest, hfile⟩
    rw [askMembers]
    split
    · exact hrest s .refl
    next hasked =>
    rw [not_or] at hasked
    have hattempt : Kept store walFile dest localId attempts (node :: nodes) s.fs
        (afterAttempt store cwd walFile dest s node (attempts node)).fs :=
      (tryFetchWalFromPeer_kept hasked.1 s.fs).mono
        (List.cons_subset.mpr ⟨List.mem_cons_self, List.nil_subset _⟩)
    split
    · next hfetched =>
      refine ⟨hattempt, fun msg hmsg => ?_⟩
      obtain ⟨hserved, dir, base, ino, hdest, hfile⟩ := tryFetchWalFromPeer_fetched hfetched
      refine ⟨node, (Except.ok.inj hmsg).symm, List.mem_cons_self, hasked.1, hserved,
        s.fs, dir, base,
        ino, .refl, hdest, hfile⟩
    · exact hrest _ hattempt
    · exact ⟨hattempt, nofun⟩

theorem localNode_id {pool : NodePool} {loc : NodeConfig} (h : pool.localNode = .ok loc) :
    loc.id = pool.localNodeId := by
  unfold NodePool.localNode at h
  split at h
  · cases h
  unfold NodePool.nodeById at h
  split at h
  · next n hfind =>
    obtain rfl := Except.ok.inj h
    simpa using List.find?_some hfind
  · cases h

/-- A call that is not refused at once asks the members. -/
theorem restoreWal_cases (store : FileWalStore) (cwd : RealPath) (walFile : String)
    (pool : NodePool) (destPath : String) (attempts : NodeConfig → Attempt) (s : RestoreState) :
    (∃ st, restoreWal store cwd walFile pool destPath attempts s = (.error st, s)) ∨
      restoreWal store cwd walFile pool destPath attempts s =
        askMembers store cwd walFile (Path.ofText destPath.toList) pool.localNodeId attempts
          pool.members s := by
  unfold restoreWal
  split
  · exact Or.inl ⟨_, rfl⟩
  split
  · exact Or.inl ⟨_, rfl⟩
  split
  · exact Or.inl ⟨_, rfl⟩
  · next loc hloc =>
    rw [← localNode_id hloc]
    exact Or.inr rfl

/-- What a call that reports success has restored, and from whom. -/
theorem restored_of_ok {store : FileWalStore} {cwd : RealPath} {walFile : String} {pool : NodePool}
    {destPath : String} {attempts : NodeConfig → Attempt} {s : RestoreState} {msg : String}
    (hok : (restoreWal store cwd walFile pool destPath attempts s).1 = .ok msg) :
    ∃ node, msg = "restored " ++ walFile ++ " from " ++ node.hostname ∧
      Restored store cwd walFile (Path.ofText destPath.toList) pool.localNodeId attempts
        pool.members s.fs (restoreWal store cwd walFile pool destPath attempts s).2.fs node := by
  rcases restoreWal_cases store cwd walFile pool destPath attempts s with ⟨st, hst⟩ | hasks
  · rw [hst] at hok
    cases hok
  · rw [hasks] at hok ⊢
    exact (askMembers_kept pool.members s).2 msg hok

/-- **No torn file.** Whatever the members do, wherever their attempts are dropped, and whether the
file is restored in the end or not: all that has changed are temporary files for the destination,
and files of its name that hold everything that one of the other members served, where a history
file is one that may be followed.  If `restore_wal` reports success, the destination is such a file,
and the message names the member. -/
theorem restoreWal_intact (store : FileWalStore) (cwd : RealPath) (walFile : String)
    (pool : NodePool) (destPath : String) (attempts : NodeConfig → Attempt) (s : RestoreState) :
    Kept store walFile (Path.ofText destPath.toList) pool.localNodeId attempts pool.members s.fs
        (restoreWal store cwd walFile pool destPath attempts s).2.fs ∧
      ∀ msg, (restoreWal store cwd walFile pool destPath attempts s).1 = .ok msg →
        ∃ node, msg = "restored " ++ walFile ++ " from " ++ node.hostname ∧
          Restored store cwd walFile (Path.ofText destPath.toList) pool.localNodeId attempts
            pool.members s.fs (restoreWal store cwd walFile pool destPath attempts s).2.fs
              node := by
  refine ⟨?_, fun msg => restored_of_ok⟩
  rcases restoreWal_cases store cwd walFile pool destPath attempts s with ⟨st, hst⟩ | hasks
  · rw [hst]
    exact .refl
  · rw [hasks]
    exact (askMembers_kept pool.members s).1

end Kept

/-! ## What the members serve -/

/-- The other side of an attempt: the member's tree and archive, and the stream it answers with. -/
structure Server where
  debug : String → String
  display : Status → String
  archiveDir : Path
  fs : FileTree
  cwd : RealPath
  failure : Option String
  stream : WalFetch.Fetch

/-- The attempt meets what the member does: it opens the file that is asked for, and its task and
the transport act in whatever order until the end of the stream. -/
def Server.Meets (server : Server) (walFile : String) (a : Attempt) : Prop :=
  ∀ f, a.setup = some (.answered (.ok f)) →
    WalFetch.serverFetchWal server.debug server.archiveDir server.fs server.cwd server.failure
        walFile = .ok f ∧
      WalFetch.Fetch.Reachable f server.stream ∧
      (WalFetch.Fetch.received server.stream.stream.read).2 ≠ none ∧
      a.content = WalFetch.Fetch.source server.display server.stream

section Serves

variable {walFile : String} {a : Attempt}

/-- What a member has served is the file in its archive, unless it lost the task in the middle. -/
theorem Server.Meets.bytes_eq {server : Server} (h : server.Meets walFile a)
    (hserved : Served walFile a) : server.stream.reader = .aborted ∨
      server.fs.readFile server.cwd (server.archiveDir.join (Path.ofName walFile)) =
        some a.content.bytes := by
  obtain ⟨f, hf⟩ := hserved.answered
  obtain ⟨hserver, hreach, hend, hcontent⟩ := h f hf
  have herror := hserved.complete
  rw [hcontent] at herror ⊢
  have hsuccess := WalFetch.Fetch.success_of_source hend herror
  rcases WalFetch.Fetch.whole_of_success hreach hsuccess with haborted | hfile
  · exact Or.inl haborted
  · refine Or.inr ?_
    rw [hfile] at hserver
    exact WalFetch.readFile_of_serverFetchWal hserver

/-- **What is restored.** Let every member serve from its own archive.  If `restore_wal` reports
success, the destination holds the file of the name that was asked for, as it is in the archive of
the member that the message names, to its last byte; or that member lost its task in the middle of
the file. -/
theorem restoreWal_serves {store : FileWalStore} {cwd : RealPath} {pool : NodePool}
    {destPath : String} {attempts : NodeConfig → Attempt} {s : RestoreState}
    {servers : NodeConfig → Server}
    (hmeets : ∀ node ∈ pool.members, (servers node).Meets walFile (attempts node))
    {msg : String} (hok : (restoreWal store cwd walFile pool destPath attempts s).1 = .ok msg) :
    ∃ node ∈ pool.members, node.id ≠ pool.localNodeId ∧
      msg = "restored " ++ walFile ++ " from " ++ node.hostname ∧
      ((servers node).stream.reader = .aborted ∨ ∃ fs₁ dir base ino bytes,
        Kept store walFile (Path.ofText destPath.toList) pool.localNodeId attempts
          pool.members s.fs fs₁ ∧
        destination store cwd fs₁ (Path.ofText destPath.toList) = some (dir, base) ∧
        (servers node).fs.readFile (servers node).cwd
          ((servers node).archiveDir.join (Path.ofName walFile)) = some bytes ∧
        (restoreWal store cwd walFile pool destPath attempts s).2.fs.node (dir ++ [base]) =
          some (.file ino bytes)) := by
  obtain ⟨node, hmsg, hnode, hother, hserved, fs₁, dir, base, ino, hfs₁, hdest, hfile⟩ :=
    restored_of_ok hok
  refine ⟨node, hnode, hother, hmsg, ?_⟩
  rcases (hmeets node hnode).bytes_eq hserved with haborted | hbytes
  · exact Or.inl haborted
  · exact Or.inr ⟨fs₁, dir, base, ino, _, hfs₁, hdest, hbytes, hfile⟩

end Serves

/-! ## Waiting in vain -/

section Cooldown

variable (store : FileWalStore) (cwd : RealPath)

/-- A call of `restore_command`. -/
structure Call where
  walFile : String
  dest : Path
  nodes : List NodeConfig
  attempts : NodeConfig → Attempt

/-- `FetchWal` ends with an error; that the member does not have the file is none. -/
def Attempt.FetchFails (a : Attempt) : Prop :=
  a.dial = some true ∧ ∃ e, a.setup.map WalFetch.clientFetchWal = some (.error e)

/-- The time of the attempt is over while it dials, waits for the answer, reads a history file or
writes. -/
def TimesOut (walFile : String) (dest : Path) (a : Attempt) (fs : FileTree) : Prop :=
  a.dial = none ∨ a.dial = some true ∧ (a.setup = none ∨
    (∃ f, a.setup.map WalFetch.clientFetchWal = some (.ok (some f))) ∧
    (readerOf walFile a = none ∨
      ∃ src, readerOf walFile a = some (.ok src) ∧
        (writeRestore store cwd a.awaits dest src fs).1 = .dropped))

/-- The attempts after which a member is left out for a while. -/
theorem leftOut_iff {walFile : String} {dest : Path} {a : Attempt} {fs : FileTree} :
    (tryFetchWalFromPeer store cwd walFile dest a fs).2.1 = true ↔
      a.FetchFails ∨ TimesOut store cwd walFile dest a fs := by
  unfold tryFetchWalFromPeer Attempt.FetchFails TimesOut
  rcases hdial : a.dial with _ | _ | _
  · simp
  · simp
  rcases hsetup : a.setup with _ | setup
  · simp
  rcases hclient : WalFetch.clientFetchWal setup with e | _ | f
  · simp [hclient]
  · simp [hclient]
  rcases hreader : readerOf walFile a with _ | outcome | src
  · simp [hclient]
  · simp [hclient]
  · rcases hwrite : (writeRestore store cwd a.awaits dest src fs).1 with _ | (_ | _ | _) | _
    all_goals simp [hclient, hwrite, writeOutcome]

instance (walFile : String) (dest : Path) (a : Attempt) (fs : FileTree) :
    Decidable (a.FetchFails ∨ TimesOut store cwd walFile dest a fs) :=
  decidable_of_iff _ (leftOut_iff store cwd)

/-- When an attempt with a member ended in vain: `FetchWal` failed, or the time was over. -/
def attemptFailure (id : NodeId) (walFile : String) (dest : Path) (node : NodeConfig) (a : Attempt)
    (s : RestoreState) : List ℕ :=
  if node.id = id ∧ (a.FetchFails ∨ TimesOut store cwd walFile dest a s.fs) then
    [a.ended] else []

/-- The same for the attempts of a call. -/
def callFailures (localId id : NodeId) (walFile : String) (dest : Path)
    (attempts : NodeConfig → Attempt) : List NodeConfig → RestoreState → List ℕ
  | [], _ => []
  | node :: nodes, s =>
    if node.id = localId ∨ inCooldown s node.id (attempts node).checked = true then
      callFailures localId id walFile dest attempts nodes s
    else
      attemptFailure store cwd id walFile dest node (attempts node) s ++
      match (tryFetchWalFromPeer store cwd walFile dest (attempts node) s.fs).1 with
      | .tryNext =>
        callFailures localId id walFile dest attempts nodes
          (afterAttempt store cwd walFile dest s node (attempts node))
      | _ => []

/-- And for calls one after the other, as PostgreSQL makes them. -/
def runFailures (localId id : NodeId) : List Call → RestoreState → List ℕ
  | [], _ => []
  | c :: cs, s =>
    callFailures store cwd localId id c.walFile c.dest c.attempts c.nodes s ++
      runFailures localId id cs
        (askMembers store cwd c.walFile c.dest localId c.attempts c.nodes s).2

end Cooldown

section Spaced

variable {store : FileWalStore} {cwd : RealPath} {localId id : NodeId} {s : RestoreState}
  {times : List ℕ}

/-- What the map remembers of a member after an attempt. -/
theorem afterAttempt_cooldown (store : FileWalStore) (cwd : RealPath)
    (walFile : String) (dest : Path)
    (node : NodeConfig) (a : Attempt) (hlast : s.cooldown id = times.getLast?) :
    (afterAttempt store cwd walFile dest s node a).cooldown id =
      (times ++ attemptFailure store cwd id walFile dest node a s).getLast? := by
  unfold afterAttempt attemptFailure
  dsimp only
  by_cases hvain : a.FetchFails ∨ TimesOut store cwd walFile dest a s.fs
  · rw [if_pos ((leftOut_iff store cwd).mpr hvain)]
    by_cases hid : node.id = id
    · rw [if_pos ⟨hid, hvain⟩, List.getLast?_concat, hid, Function.update_self]
    · rw [if_neg (fun h => hid h.1), List.append_nil, Function.update_of_ne (Ne.symm hid), hlast]
  · rw [if_neg (fun h => hvain ((leftOut_iff store cwd).mp h)), if_neg (fun h => hvain h.2),
      List.append_nil, hlast]

/-- A member that is asked has not been waited for in vain for a while. -/
theorem spaced_attemptFailure (store : FileWalStore) (cwd : RealPath)
    (walFile : String) (dest : Path)
    {node : NodeConfig} {a : Attempt} (hspaced : Spaced restoreWalPeerCooldown times)
    (hlast : s.cooldown id = times.getLast?) (hasked : ¬ inCooldown s node.id a.checked = true)
    (hclock : a.checked ≤ a.ended) :
    Spaced restoreWalPeerCooldown
      (times ++ attemptFailure store cwd id walFile dest node a s) := by
  unfold attemptFailure
  split
  · next hfailed =>
    refine hspaced.snoc fun l hl => ?_
    have hgap : 0 < restoreWalPeerCooldown := by decide
    rw [← hlast] at hl
    unfold inCooldown at hasked
    rw [hfailed.1, hl, decide_eq_true_eq, not_lt] at hasked
    have helapsed : restoreWalPeerCooldown ≤ a.checked - l := hasked
    omega
  · rwa [List.append_nil]

/-- The map remembers when a member was last waited for in vain, and these moments keep their
distance. -/
theorem callFailures_spaced (store : FileWalStore) (cwd : RealPath) (localId : NodeId)
    (walFile : String) (dest : Path) {attempts : NodeConfig → Attempt}
    (hclock : ∀ node, (attempts node).checked ≤ (attempts node).ended) (nodes : List NodeConfig)
    (hspaced : Spaced restoreWalPeerCooldown times) (hlast : s.cooldown id = times.getLast?) :
    Spaced restoreWalPeerCooldown
        (times ++ callFailures store cwd localId id walFile dest attempts nodes s) ∧
      (askMembers store cwd walFile dest localId attempts nodes s).2.cooldown id =
        (times ++ callFailures store cwd localId id walFile dest attempts nodes s).getLast? := by
  induction nodes generalizing s times with
  | nil =>
    rw [callFailures, askMembers, List.append_nil]
    exact ⟨hspaced, hlast⟩
  | cons node nodes ih =>
    rw [callFailures, askMembers]
    split
    · exact ih hspaced hlast
    next hasked =>
    rw [not_or] at hasked
    have hspaced' :=
      spaced_attemptFailure store cwd walFile dest hspaced hlast hasked.2 (hclock node)
    have hlast' := afterAttempt_cooldown store cwd walFile dest node (attempts node) hlast
    rw [← List.append_assoc]
    rcases (tryFetchWalFromPeer store cwd walFile dest (attempts node) s.fs).1 with _ | _ | st
    · dsimp only
      rw [List.append_nil]
      exact ⟨hspaced', hlast'⟩
    · exact ih hspaced' hlast'
    · dsimp only
      rw [List.append_nil]
      exact ⟨hspaced', hlast'⟩

/-- Over all calls. -/
theorem runFailures_spaced {calls : List Call}
    (hclock : ∀ c ∈ calls, ∀ node, (c.attempts node).checked ≤ (c.attempts node).ended)
    (hspaced : Spaced restoreWalPeerCooldown times) (hlast : s.cooldown id = times.getLast?) :
    Spaced restoreWalPeerCooldown (times ++ runFailures store cwd localId id calls s) := by
  induction calls generalizing s times with
  | nil =>
    rw [runFailures, List.append_nil]
    exact hspaced
  | cons c calls ih =>
    obtain ⟨hspaced', hlast'⟩ := callFailures_spaced store cwd localId c.walFile c.dest
      (hclock c List.mem_cons_self) c.nodes hspaced hlast
    rw [runFailures, ← List.append_assoc]
    exact ih (fun c' hc' => hclock c' (List.mem_cons_of_mem c hc')) hspaced' hlast'

/-- **How often a member is waited for in vain.** In any run of calls one after the other, the
moments at which `FetchWal` of one member failed or an attempt with it ran out of time are at least
ten seconds apart, so that a stretch of time has room for so many of them, however many files
PostgreSQL asks for. -/
theorem failures_spaced (store : FileWalStore) (cwd : RealPath) (localId id : NodeId)
    {calls : List Call}
    (hclock : ∀ c ∈ calls, ∀ node, (c.attempts node).checked ≤ (c.attempts node).ended)
    (hstart : s.cooldown id = none) :
    Spaced restoreWalPeerCooldown (runFailures store cwd localId id calls s) ∧
      ∀ t w, ((runFailures store cwd localId id calls s).filter fun m =>
        decide (t ≤ m) && decide (m < t + w)).length ≤ w ⌈/⌉ restoreWalPeerCooldown := by
  have hspaced : Spaced restoreWalPeerCooldown (runFailures store cwd localId id calls s) :=
    List.nil_append (runFailures store cwd localId id calls s) ▸
      runFailures_spaced hclock .nil hstart
  exact ⟨hspaced, fun t w => hspaced.length_window_le (by decide) t w⟩

end Spaced

/-! ## A call -/

/-- A pool of two; the other member serves a segment. -/
def twoPool : NodePool := ⟨[⟨0, "db0"⟩, ⟨1, "db1"⟩], 0⟩

def segmentServer : Server where
  debug := id
  display := Status.message
  archiveDir := ⟨true, [.normal "archive"]⟩
  fs := WalFetch.Fetch.archiveTree
  cwd := []
  failure := none
  stream := WalFetch.Fetch.segmentRead

def segmentAttempt : Attempt where
  checked := 0
  ended := 1
  dial := some true
  setup := some (.answered (.ok (.file [1, 2, 3])))
  content := WalFetch.Fetch.source Status.message WalFetch.Fetch.segmentRead
  screening := none
  awaits :=
    { parent := .ready, root := .ready, suffix := .ok "0a1b2c3d", create := .ready,
      copy := .ready, sync := .ready, rename := .ready, remove := .ready }

theorem segmentServer_meets : segmentServer.Meets "000000010000000000000001" segmentAttempt := by
  intro f hf
  obtain rfl : .file [1, 2, 3] = f :=
    Except.ok.inj (WalFetch.Setup.answered.inj (Option.some.inj hf))
  refine ⟨by decide +kernel, ?_, nofun, rfl⟩
  exact WalFetch.Fetch.reachable_init.run WalFetch.Fetch.run_segmentSteps

/-- `restore_wal` of the segment, in a data directory that has none of it. -/
def segmentRun : Except Status String × RestoreState :=
  restoreWal ⟨⟨true, [.normal "data"]⟩⟩ [] "000000010000000000000001" twoPool
    "pg_wal/RECOVERYXLOG" (fun _ => segmentAttempt) ⟨dataTree, fun _ => none⟩

/-- The segment comes from the other member, to its last byte. -/
theorem restoreWal_serves_segment :
    segmentRun.1 = .ok "restored 000000010000000000000001 from db1" ∧
      ∃ fs₁ dir base ino,
        Kept ⟨⟨true, [.normal "data"]⟩⟩ "000000010000000000000001"
          (Path.ofText "pg_wal/RECOVERYXLOG".toList) 0 (fun _ => segmentAttempt) twoPool.members
          dataTree fs₁ ∧
        destination ⟨⟨true, [.normal "data"]⟩⟩ [] fs₁
          (Path.ofText "pg_wal/RECOVERYXLOG".toList) = some (dir, base) ∧
        segmentRun.2.fs.node (dir ++ [base]) = some (.file ino [1, 2, 3]) := by
  have hok : segmentRun.1 = .ok "restored 000000010000000000000001 from db1" := by decide +kernel
  obtain ⟨node, -, -, -, haborted |
      ⟨fs₁, dir, base, ino, bytes, hkept, hdest, hbytes, hfile⟩⟩ :=
    @restoreWal_serves _ _ _ _ _ _ _ (fun _ => segmentServer) (fun _ _ => segmentServer_meets) _ hok
  · exact absurd haborted (by decide +kernel)
  · have harchived : segmentServer.fs.readFile segmentServer.cwd
        (segmentServer.archiveDir.join (Path.ofName "000000010000000000000001")) =
          some [1, 2, 3] := by decide +kernel
    obtain rfl := Option.some.inj (hbytes.symm.trans harchived)
    exact ⟨hok, fs₁, dir, base, ino, hkept, hdest, hfile⟩

/-- A call that asks the other member from `checked` to `ended` seconds, unless it is left out. -/
def vainCall (checked ended : ℕ) (setup : Option WalFetch.Setup) : Call where
  walFile := "000000010000000000000001"
  dest := ⟨false, [.normal "RECOVERYXLOG"]⟩
  nodes := twoPool.members
  attempts _ :=
    { segmentAttempt with
      checked := Duration.ofSecs checked, ended := Duration.ofSecs ended, setup := setup }

/-- The member does not answer within the 30 seconds and is left out of the next call; later the
call fails, and later still it does not answer again. -/
def vainCalls : List Call :=
  [vainCall 0 30 none, vainCall 31 61 none, vainCall 40 45 (some .timedOut), vainCall 60 90 none]

theorem failures_spaced_vain :
    runFailures ⟨⟨true, [.normal "data"]⟩⟩ [] 0 1 vainCalls ⟨dataTree, fun _ => none⟩ =
        [Duration.ofSecs 30, Duration.ofSecs 45, Duration.ofSecs 90] ∧
      Spaced restoreWalPeerCooldown
        (runFailures ⟨⟨true, [.normal "data"]⟩⟩ [] 0 1 vainCalls
          ⟨dataTree, fun _ => none⟩) := by
  refine ⟨by decide +kernel, (failures_spaced _ _ _ _ (fun c hc node => ?_) rfl).1⟩
  simp only [vainCalls, List.mem_cons, List.not_mem_nil, or_false] at hc
  rcases hc with rfl | rfl | rfl | rfl <;> simp [vainCall, Duration.ofSecs]

end RestoreWal
end PgAgent
