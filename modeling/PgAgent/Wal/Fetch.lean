import PgAgent.Peer.Progress
import PgAgent.Wal.Restore

/-!
# Fetching WAL from a peer

A peer serves a segment or a history file from its archive directory: it opens the file, and a task
of its own reads it piece by piece and puts each piece into a channel of four places.  The
requesting node reads the pieces as they come and writes them to the data directory.

Nothing in the stream says how long the file is.  The caller takes the end of the stream for the end
of the file, so that it matters which of the things that can happen end the stream with success.

* `openArchive_name` --- a file is served only under a name that is one component of a path;
* `fetch_view` --- what the caller has read is the beginning of the file, and all of it if the
  stream has ended with success, unless the task was lost;
* `fetch_restores` --- what is then installed in the data directory.
-/

namespace PgAgent
namespace WalFetch

open Unix Peer ServerStream

/-! ## Opening the file -/

/-- `[0-9A-F]`. -/
def isHexUpper (c : Char) : Bool := c.isDigit || (decide ('A' ≤ c) && decide (c ≤ 'F'))

/-- `wal_filename_re`. -/
def walFilenameRe (name : List Char) : Bool :=
  (decide (name.length = 24) && name.all isHexUpper) ||
    (decide (name.length = 16) && (name.take 8).all isHexUpper &&
      decide (name.drop 8 = ".history".toList))

/-- `WalStoreError`, as far as `open_archive` returns it. -/
inductive OpenError
  | walNotFound (walFile : String)
  | walInvalid (walFile reason : String)
  | io (e : String)
  deriving DecidableEq, Repr

/-- `validate_wal_filename`. -/
def validateWalFilename (name : String) : Except OpenError Unit :=
  if name = "" ∨ name = "." ∨ name = ".." ∨ '/' ∈ name.toList then
    .error (.walInvalid name "contains path component")
  else if !walFilenameRe name.toList then
    .error (.walInvalid name "must match ^([0-9A-F]\x7b24\x7d|[0-9A-F]\x7b8\x7d\\.history)$")
  else .ok ()

/-- An open file; a directory can be opened and not read. -/
inductive Opened
  | file (bytes : List UInt8)
  | directory
  deriving DecidableEq, Repr

def Opened.bytes : Opened → List UInt8
  | .file bytes => bytes
  | .directory => []

/-- `File::open`, which may fail otherwise. -/
def fileOpen (fs : FileTree) (cwd : RealPath) (failure : Option String) (p : Path) :
    Except (Option String) Opened :=
  match failure with
  | some e => .error (some e)
  | none =>
    match (fs.canonicalize cwd p).bind fs.node with
    | some (.file _ bytes) => .ok (.file bytes)
    | some .dir => .ok .directory
    | _ => .error none

/-- `open_archive`. -/
def openArchive (archiveDir : Path) (fs : FileTree) (cwd : RealPath) (failure : Option String)
    (walFile : String) : Except OpenError Opened := do
  validateWalFilename walFile
  match fileOpen fs cwd failure (archiveDir.join (Path.ofText walFile.toList)) with
  | .ok f => pure f
  | .error none => throw (.walNotFound walFile)
  | .error (some e) => throw (.io e)

theorem validateWalFilename_ok {name : String} (h : validateWalFilename name = .ok ()) :
    walFilenameRe name.toList = true ∧ Path.ofText name.toList = Path.ofName name := by
  unfold validateWalFilename at h
  split at h
  · cases h
  next hcomponent =>
  split at h
  · cases h
  next hre =>
  rw [not_or, not_or, not_or] at hcomponent
  obtain ⟨hempty, hdot, hdots, hslash⟩ := hcomponent
  have hname : ∀ {text : List Char}, name.toList = text → name = String.ofList text :=
    fun heq => by
    rw [← heq, String.ofList_toList]
  refine ⟨by simpa using hre, ?_⟩
  rw [Path.ofText_name (fun heq => hempty (hname heq)) (fun heq => hdot (hname heq))
    (fun heq => hdots (hname heq)) hslash, String.ofList_toList]

/-- A file is served only under a name that is one component of a path, so that it is looked up in
the archive directory itself. -/
theorem openArchive_name {archiveDir : Path} {fs : FileTree} {cwd : RealPath}
    {failure : Option String} {walFile : String} {f : Opened}
    (h : openArchive archiveDir fs cwd failure walFile = .ok f) :
    walFilenameRe walFile.toList = true ∧
      fileOpen fs cwd failure (archiveDir.join (Path.ofName walFile)) = .ok f := by
  unfold openArchive at h
  rcases hvalid : validateWalFilename walFile with e | _
  · rw [hvalid] at h
    cases h
  obtain ⟨hre, hname⟩ := validateWalFilename_ok hvalid
  rw [hvalid, hname] at h
  refine ⟨hre, ?_⟩
  rcases hopen : fileOpen fs cwd failure (archiveDir.join (Path.ofName walFile)) with (_ | e) | f'
  · simp only [hopen] at h
    cases h
  · simp only [hopen] at h
    cases h
  · simp only [hopen] at h
    exact congrArg Except.ok (Except.ok.inj h)

/-- A file that is open has been read from the tree. -/
theorem readFile_of_fileOpen {fs : FileTree} {cwd : RealPath} {failure : Option String} {p : Path}
    {bytes : List UInt8} (h : fileOpen fs cwd failure p = .ok (.file bytes)) :
    fs.readFile cwd p = some bytes := by
  unfold fileOpen at h
  split at h
  · cases h
  split at h
  · next ino bytes' hnode =>
    obtain rfl := Opened.file.inj (Except.ok.inj h)
    obtain ⟨r, hr, hfile⟩ := Option.bind_eq_some_iff.mp hnode
    unfold FileTree.readFile
    rw [hr, Option.bind_some, hfile]
  · cases h
  · cases h

/-- The errors of the handler of `FetchWal`; `debug` is how a string is printed by `{:?}`. -/
def openStatus (debug : String → String) (walFile : String) : OpenError → Status
  | .walNotFound name => ⟨.notFound, "WAL segment not found: " ++ name⟩
  | .walInvalid name reason =>
    ⟨.invalidArgument, "invalid wal_file " ++ debug name ++ ": " ++ reason⟩
  | .io e => ⟨.internal, "open " ++ walFile ++ ": " ++ e⟩

/-- `fetch_wal` of the peer's server, up to the stream. -/
def serverFetchWal (debug : String → String) (archiveDir : Path) (fs : FileTree) (cwd : RealPath)
    (failure : Option String) (walFile : String) : Except Status Opened :=
  if walFile = "" then .error ⟨.invalidArgument, "wal_file is required"⟩
  else (openArchive archiveDir fs cwd failure walFile).mapError (openStatus debug walFile)

/-- A file that is served is the one of that name in the archive directory. -/
theorem readFile_of_serverFetchWal {debug : String → String} {archiveDir : Path} {fs : FileTree}
    {cwd : RealPath} {failure : Option String} {walFile : String} {bytes : List UInt8}
    (h : serverFetchWal debug archiveDir fs cwd failure walFile = .ok (.file bytes)) :
    fs.readFile cwd (archiveDir.join (Path.ofName walFile)) = some bytes := by
  unfold serverFetchWal at h
  split at h
  · cases h
  rcases hopen : openArchive archiveDir fs cwd failure walFile with e | f
  · rw [hopen] at h
    cases h
  · rw [hopen] at h
    obtain rfl : f = .file bytes := Except.ok.inj h
    exact readFile_of_fileOpen (openArchive_name hopen).2

/-- What comes of the request: an answer in time, or none. -/
inductive Setup
  | answered (r : Except Status Opened)
  | timedOut
  deriving DecidableEq, Repr

/-- `fetch_wal` of the caller, up to the stream: `none` if the peer does not have the file. -/
def clientFetchWal : Setup → Except String (Option Opened)
  | .timedOut => .error "peer fetch_wal: no response within 5s (peer unreachable?)"
  | .answered (.ok f) => .ok (some f)
  | .answered (.error s) =>
    if s.code = .notFound then .ok none else .error ("peer fetch_wal: " ++ s.message)

/-! ## The stream -/

abbrev Chunk := List UInt8

/-- The places of the channel. -/
def walChannel : ℕ := 4

/-- The task that reads the file. -/
inductive Reader
  /-- Before a read; so much of the file is left. -/
  | reading (rest : List UInt8)
  /-- The file cannot be read. -/
  | unreadable
  /-- A piece is to be sent. -/
  | sending (chunk rest : List UInt8)
  /-- A read has failed, and its error is to be sent. -/
  | failing (e : String)
  /-- The end of the file; the error has been sent; the caller is gone. -/
  | eof
  | failed (e : String)
  | unheard
  /-- The task was lost. -/
  | aborted
  deriving DecidableEq, Repr

def Reader.start : Opened → Reader
  | .file bytes => .reading bytes
  | .directory => .unreadable

structure Fetch where
  reader : Reader
  stream : State Chunk Status
  deriving DecidableEq, Repr

inductive FetchEvent
  /-- A read puts that many bytes into the buffer. -/
  | read (n : ℕ)
  | readError (e : String)
  /-- What is to be sent is sent, which waits for room. -/
  | send
  /-- The task panics, or is dropped. -/
  | abort
  /-- The server, the client or the connection. -/
  | transport (ev : Event Chunk Status)
  deriving DecidableEq, Repr

namespace Fetch

def init (f : Opened) : Fetch := ⟨.start f, .init⟩

def readStatus (e : String) : Status := ⟨.internal, "read: " ++ e⟩

/-- The task ends, and its sender with it. -/
def leave (reader : Reader) (s : State Chunk Status) : Option Fetch :=
  (ServerStream.step walChannel s .close).map fun s => ⟨reader, s⟩

/-- A step of one of the parties. -/
def step (p : Fetch) : FetchEvent → Option Fetch
  | .read n =>
    match p.reader with
    | .reading rest =>
      -- a read gives no bytes at the end of the file only
      if rest = [] then (if n = 0 then leave .eof p.stream else none)
      else if n = 0 ∨ rest.length < n then none
      else some ⟨.sending (rest.take n) (rest.drop n), p.stream⟩
    | _ => none
  | .readError e =>
    match p.reader with
    | .reading _ | .unreadable => some ⟨.failing e, p.stream⟩
    | _ => none
  | .send =>
    match p.reader with
    | .sending chunk rest =>
      (ServerStream.step walChannel p.stream (.send (.ok chunk))).bind fun s =>
        -- without a receiver the send fails
        if p.stream.receiver then some ⟨.reading rest, s⟩ else leave .unheard s
    | .failing e =>
      (ServerStream.step walChannel p.stream (.send (.error (readStatus e)))).bind fun s =>
        leave (.failed e) s
    | _ => none
  | .abort =>
    match p.reader with
    | .reading _ | .unreadable | .sending _ _ | .failing _ => leave .aborted p.stream
    | _ => none
  | .transport ev =>
    if ev.isTransport then
      (ServerStream.step walChannel p.stream ev).map fun s => ⟨p.reader, s⟩
    else none

def Reachable (f : Opened) : Fetch → Prop := Trace.Reachable (· = init f) step

/-- What the caller has read: the pieces, and how the stream has ended, if it has. -/
def received : List (Frame Chunk Status) → List Chunk × Option (Option Status)
  | [] => ([], none)
  | .item c :: frames => (c :: (received frames).1, (received frames).2)
  | .trailers st :: _ => ([], some st)

/-! ## What the task puts into the channel -/

/-- The pieces in the channel's history are the file up to what is left of it. -/
def Carries (f : Opened) (s : State Chunk Status) (rest : List UInt8) : Prop :=
  ∃ cs : List Chunk, s.accepted = cs.map .ok ∧ f = .file (cs.flatten ++ rest)

/-- They are a beginning of the file. -/
def Part (f : Opened) (s : State Chunk Status) : Prop :=
  (∃ rest, Carries f s rest) ∨ f = .directory ∧ s.accepted = []

/-- The connection was lost, and not in order to tell of a success. -/
def Lost (s : State Chunk Status) : Prop := s.connection ≠ .holds ∧ .trailers none ∉ s.sent

/-- What the channel has taken in, by how far the task has come. -/
def Tells (f : Opened) : Reader → State Chunk Status → Prop
  | .reading rest, s => s.sender = true ∧ Carries f s rest
  | .unreadable, s => s.sender = true ∧ f = .directory ∧ s.accepted = []
  | .sending chunk rest, s => s.sender = true ∧ chunk ≠ [] ∧ Carries f s (chunk ++ rest)
  | .failing _, s => s.sender = true ∧ Part f s
  | .eof, s => s.sender = false ∧ Carries f s []
  | .failed e, s => s.sender = false ∧ (Part f s ∧ Lost s ∨
      ∃ front : List Chunk, front.flatten <+: f.bytes ∧
        s.accepted = front.map .ok ++ [.error (readStatus e)])
  | .unheard, s => s.sender = false ∧ Part f s ∧ Lost s
  | .aborted, s => s.sender = false ∧ Part f s

structure Honest (f : Opened) (p : Fetch) : Prop where
  books : Books p.stream
  tells : Tells f p.reader p.stream

section Honest

variable {f : Opened} {p p' : Fetch} {s s' : State Chunk Status} {rest : List UInt8}

theorem Carries.part (h : Carries f s rest) : Part f s := Or.inl ⟨rest, h⟩

theorem Carries.push {chunk : Chunk} (h : Carries f s (chunk ++ rest)) :
    Carries f (s.push (.ok chunk)) rest := by
  obtain ⟨cs, hacc, hfile⟩ := h
  refine ⟨cs ++ [chunk], ?_, ?_⟩
  · show s.accepted ++ [.ok chunk] = _
    rw [hacc, List.map_append, List.map_singleton]
  · rw [hfile, List.flatten_append, List.flatten_singleton, List.append_assoc]

/-- The pieces of a part. -/
theorem Part.exists_chunks (h : Part f s) :
    ∃ cs : List Chunk, s.accepted = cs.map .ok ∧ cs.flatten <+: f.bytes := by
  rcases h with ⟨rest, cs, hacc, rfl⟩ | ⟨rfl, hacc⟩
  · exact ⟨cs, hacc, List.prefix_append _ _⟩
  · exact ⟨[], hacc, List.prefix_rfl⟩

theorem Part.error_notMem (h : Part f s) (e : Status) : Except.error e ∉ s.accepted := by
  obtain ⟨cs, hacc, -⟩ := h.exists_chunks
  rw [hacc]
  simp

/-- What leaves the history alone, and does not repair the connection. -/
theorem Tells.frame {reader : Reader} (h : Tells f reader s) (hsender : s'.sender = s.sender)
    (haccepted : s'.accepted = s.accepted)
    (hconn : s'.connection = s.connection ∨ s'.connection ≠ .holds)
    (hsent : s.connection ≠ .holds → s'.sent = s.sent) : Tells f reader s' := by
  have hcarries : ∀ rest, Carries f s rest → Carries f s' rest := by
    rintro rest ⟨cs, hacc, hfile⟩
    exact ⟨cs, haccepted.trans hacc, hfile⟩
  have hpart : Part f s → Part f s' := by
    rintro (⟨rest, hrest⟩ | ⟨hdir, hacc⟩)
    · exact Or.inl ⟨rest, hcarries rest hrest⟩
    · exact Or.inr ⟨hdir, haccepted.trans hacc⟩
  have hlost : Lost s → Lost s' := by
    rintro ⟨hbad, hno⟩
    refine ⟨?_, by rwa [hsent hbad]⟩
    rcases hconn with hsame | hbad'
    · rwa [hsame]
    · exact hbad'
  rcases reader with rest | _ | ⟨chunk, rest⟩ | e | _ | e | _ | _
  · exact ⟨hsender.trans h.1, hcarries rest h.2⟩
  · exact ⟨hsender.trans h.1, h.2.1, haccepted.trans h.2.2⟩
  · exact ⟨hsender.trans h.1, h.2.1, hcarries _ h.2.2⟩
  · exact ⟨hsender.trans h.1, hpart h.2⟩
  · exact ⟨hsender.trans h.1, hcarries _ h.2⟩
  · refine ⟨hsender.trans h.1, ?_⟩
    rcases h.2 with ⟨hp, hl⟩ | ⟨front, hfront, hacc⟩
    · exact Or.inl ⟨hpart hp, hlost hl⟩
    · exact Or.inr ⟨front, hfront, haccepted.trans hacc⟩
  · exact ⟨hsender.trans h.1, hpart h.2.1, hlost h.2.2⟩
  · exact ⟨hsender.trans h.1, hpart h.2⟩

theorem honest_init (f : Opened) : Honest f (init f) := by
  refine ⟨books_init, ?_⟩
  rcases f with bytes | _
  · exact ⟨rfl, [], rfl, rfl⟩
  · exact ⟨rfl, rfl, rfl⟩

/-- The task ends. -/
theorem leave_eq {reader : Reader} (h : leave reader s = some p') :
    (∃ s', ServerStream.step walChannel s .close = some s' ∧ p' = ⟨reader, s'⟩) ∧
      p' = ⟨reader, { s with sender := false }⟩ := by
  obtain ⟨s', hs', rfl⟩ := Option.map_eq_some_iff.mp h
  exact ⟨⟨s', hs', rfl⟩, by rw [step_close hs']⟩

theorem honest_leave {reader : Reader} (hbooks : Books s) (h : leave reader s = some p')
    (htells : Tells f reader { s with sender := false }) : Honest f p' := by
  obtain ⟨-, rfl⟩ := leave_eq h
  exact ⟨hbooks.close, htells⟩

/-- While the connection holds, the server takes the next message. -/
theorem lost_of_receiver (hbooks : Books s) (hsender : s.sender = true) (hpart : Part f s)
    (hgone : s.receiver = false) : Lost s := by
  refine ⟨fun hconn => ?_, hbooks.success_notMem_sent hsender⟩
  rw [hbooks.receiver_of_holds hconn hsender hpart.error_notMem] at hgone
  cases hgone

theorem honest_read {n : ℕ} (h : Honest f ⟨.reading rest, s⟩)
    (hstep : step ⟨.reading rest, s⟩ (.read n) = some p') : Honest f p' := by
  obtain ⟨hbooks, hsender, hcarries⟩ := h
  unfold step at hstep
  dsimp only at hstep
  split at hstep
  · next hend =>
    subst hend
    split at hstep
    · exact honest_leave hbooks hstep ⟨rfl, hcarries⟩
    · cases hstep
  · split at hstep
    · cases hstep
    · next hn =>
      obtain rfl := Option.some.inj hstep
      refine ⟨hbooks, hsender, ?_, ?_⟩
      · rw [← List.length_pos_iff, List.length_take]
        omega
      · rwa [List.take_append_drop]

theorem honest_send_chunk {chunk : Chunk} (h : Honest f ⟨.sending chunk rest, s⟩)
    (hstep : step ⟨.sending chunk rest, s⟩ .send = some p') : Honest f p' := by
  obtain ⟨hbooks, hsender, -, hcarries⟩ := h
  obtain ⟨s', hs', hnext⟩ := Option.bind_eq_some_iff.mp hstep
  rcases step_send hs' with ⟨hgone, rfl⟩ | ⟨hopen, rfl⟩
  · rw [if_neg (by rw [hgone]; exact Bool.false_ne_true)] at hnext
    have hlost := lost_of_receiver hbooks hsender hcarries.part hgone
    exact honest_leave hbooks hnext ⟨rfl, hcarries.part, hlost⟩
  · rw [if_pos hopen] at hnext
    obtain rfl := Option.some.inj hnext
    exact ⟨hbooks.step hs', hsender, hcarries.push⟩

theorem honest_send_error {e : String} (h : Honest f ⟨.failing e, s⟩)
    (hstep : step ⟨.failing e, s⟩ .send = some p') : Honest f p' := by
  obtain ⟨hbooks, hsender, hpart⟩ := h
  obtain ⟨s', hs', hnext⟩ := Option.bind_eq_some_iff.mp hstep
  rcases step_send hs' with ⟨hgone, rfl⟩ | ⟨-, rfl⟩
  · have hlost := lost_of_receiver hbooks hsender hpart hgone
    exact honest_leave hbooks hnext ⟨rfl, Or.inl ⟨hpart, hlost⟩⟩
  · obtain ⟨cs, hacc, hprefix⟩ := hpart.exists_chunks
    refine honest_leave (hbooks.step hs') hnext ⟨rfl, Or.inr ⟨cs, hprefix, ?_⟩⟩
    show s.accepted ++ _ = _
    rw [hacc]

/-- Every step of every party keeps the books. -/
theorem Honest.step {ev : FetchEvent} (h : Honest f p) (hstep : step p ev = some p') :
    Honest f p' := by
  obtain ⟨reader, s⟩ := p
  rcases ev with n | e | _ | _ | ev
  · rcases reader with rest | _ | ⟨chunk, rest⟩ | e | _ | e | _ | _
    case reading => exact honest_read h hstep
    all_goals cases hstep
  · obtain ⟨hbooks, htells⟩ := h
    rcases reader with rest | _ | ⟨chunk, rest⟩ | e | _ | e | _ | _
    case reading =>
      obtain rfl := Option.some.inj hstep
      exact ⟨hbooks, htells.1, htells.2.part⟩
    case unreadable =>
      obtain rfl := Option.some.inj hstep
      exact ⟨hbooks, htells.1, Or.inr htells.2⟩
    all_goals cases hstep
  · rcases reader with rest | _ | ⟨chunk, rest⟩ | e | _ | e | _ | _
    case sending => exact honest_send_chunk h hstep
    case failing => exact honest_send_error h hstep
    all_goals cases hstep
  · obtain ⟨hbooks, htells⟩ := h
    rcases reader with rest | _ | ⟨chunk, rest⟩ | e | _ | e | _ | _
    case reading => exact honest_leave hbooks hstep ⟨rfl, htells.2.part⟩
    case unreadable => exact honest_leave hbooks hstep ⟨rfl, Or.inr htells.2⟩
    case sending => exact honest_leave hbooks hstep ⟨rfl, htells.2.2.part⟩
    case failing => exact honest_leave hbooks hstep ⟨rfl, htells.2⟩
    all_goals cases hstep
  · unfold Fetch.step at hstep
    dsimp only at hstep
    split at hstep
    · next hev =>
      obtain ⟨s', hs', rfl⟩ := Option.map_eq_some_iff.mp hstep
      obtain ⟨hsender, haccepted, hconn, hsent⟩ := step_transport hev hs'
      exact ⟨h.books.step hs', h.tells.frame hsender haccepted hconn hsent⟩
    · cases hstep

theorem Reachable.honest (h : Reachable f p) : Honest f p :=
  Trace.Reachable.invariant (fun _ hp => hp ▸ honest_init f)
    (fun _ _ _ hp hstep => hp.step hstep) h

/-- The pieces in the history, and the error at its end if a read has failed. -/
theorem Tells.exists_chunks {reader : Reader} (h : Tells f reader s) :
    ∃ cs : List Chunk, cs.flatten <+: f.bytes ∧ (s.accepted = cs.map .ok ∨
      ∃ e, reader = .failed e ∧ s.accepted = cs.map .ok ++ [.error (readStatus e)]) := by
  have hpart : Part f s → ∃ cs : List Chunk, cs.flatten <+: f.bytes ∧
      (s.accepted = cs.map .ok ∨
      ∃ e, reader = .failed e ∧ s.accepted = cs.map .ok ++ [.error (readStatus e)]) := by
    intro hp
    obtain ⟨cs, hacc, hprefix⟩ := hp.exists_chunks
    exact ⟨cs, hprefix, Or.inl hacc⟩
  rcases reader with rest | _ | ⟨chunk, rest⟩ | e | _ | e | _ | _
  · exact hpart h.2.part
  · exact hpart (Or.inr h.2)
  · exact hpart h.2.2.part
  · exact hpart h.2
  · exact hpart h.2.part
  · rcases h.2 with ⟨hp, -⟩ | ⟨cs, hprefix, hacc⟩
    · exact hpart hp
    · exact ⟨cs, hprefix, Or.inr ⟨e, rfl, hacc⟩⟩
  · exact hpart h.2.1
  · exact hpart h.2

end Honest

/-! ## What the caller reads -/

section View

variable {f : Opened} {p p' : Fetch}

theorem received_items (cs : List Chunk) (frames : List (Frame Chunk Status)) :
    received (cs.map .item ++ frames) = (cs ++ (received frames).1, (received frames).2) := by
  induction cs with
  | nil => rfl
  | cons c cs ih =>
    rw [List.map_cons, List.cons_append, received, ih]
    rfl

/-- A stream that has ended with success has carried the whole file, if the task was not lost. -/
theorem Honest.of_success (h : Honest f p) {as : List Chunk}
    (hmem : .trailers none ∈ p.stream.read)
    (hsender : p.stream.sender = false) (hacc : p.stream.accepted = as.map .ok) :
    p.reader = .aborted ∨ f = .file as.flatten := by
  have htells := h.tells
  have hsent := h.books.success_mem_sent hmem
  rcases hreader : p.reader with rest | _ | ⟨chunk, rest⟩ | e | _ | e | _ | _
  all_goals rw [hreader] at htells
  · exact absurd (htells.1.symm.trans hsender) (by decide)
  · exact absurd (htells.1.symm.trans hsender) (by decide)
  · exact absurd (htells.1.symm.trans hsender) (by decide)
  · exact absurd (htells.1.symm.trans hsender) (by decide)
  · obtain ⟨cs, hcs, hfile⟩ := htells.2
    have hsame : cs = as :=
      List.map_injective_iff.mpr (fun _ _ heq => Except.ok.inj heq) (hcs.symm.trans hacc)
    rw [hfile, hsame, List.append_nil]
    exact Or.inr rfl
  · rcases htells.2 with ⟨-, -, hno⟩ | ⟨front, -, herror⟩
    · exact absurd hsent hno
    · have hmember : Except.error (readStatus e) ∈ as.map Except.ok := by
        rw [← hacc, herror]
        exact List.mem_append_right _ List.mem_cons_self
      simp at hmember
  · exact absurd hsent htells.2.2.2
  · exact Or.inl rfl

/-- What has been read is the beginning of the file, and what the end of the stream says, if it has
come. -/
theorem received_cases (h : Reachable f p) :
    (received p.stream.read).1.flatten <+: f.bytes ∧
      ((received p.stream.read).2 = none ∨
        (received p.stream.read).2 = some none ∧
          (p.reader = .aborted ∨ f = .file (received p.stream.read).1.flatten) ∨
        ∃ st, (received p.stream.read).2 = some (some st) ∧
          (p.stream.connection = .broken st ∨
          ∃ e, p.reader = .failed e ∧ st = readStatus e)) := by
  have hbooks := h.honest.books
  have htells := h.honest.tells
  obtain ⟨cs, hprefix, hacc⟩ := htells.exists_chunks
  -- the pieces that have been read are the first of those in the history
  have hread : ∀ as : List Chunk, as.map Except.ok <+: p.stream.accepted →
      as.flatten <+: f.bytes := by
    intro as has
    refine (List.IsPrefix.flatten ?_).trans hprefix
    rcases hacc with hacc | ⟨e, -, hacc⟩
    · rw [hacc, ← List.append_nil (cs.map _)] at has
      exact prefix_of_ok_prefix (by simp) has
    · rw [hacc] at has
      exact prefix_of_ok_prefix (by simp) has
  rcases hbooks.view with ⟨as, hr, has⟩ | ⟨as, rest, hr, hsender, has⟩ |
    ⟨as, e, rest, hr, has, hcause⟩
  · have hreceived := received_items as []
    rw [List.append_nil, ← hr] at hreceived
    rw [hreceived]
    refine ⟨?_, Or.inl rfl⟩
    rw [show (received []).1 = ([] : List Chunk) from rfl, List.append_nil]
    exact hread as has
  · have hreceived := received_items as (.trailers none :: rest)
    rw [← hr] at hreceived
    rw [hreceived]
    refine ⟨?_, Or.inr (Or.inl ⟨rfl, ?_⟩)⟩
    · rw [show (received (.trailers none :: rest)).1 = [] from rfl, List.append_nil]
      exact hread as (has ▸ List.prefix_rfl)
    · rw [show (received (.trailers none :: rest)).1 = [] from rfl, List.append_nil]
      refine h.honest.of_success ?_ hsender has
      rw [hr]
      exact List.mem_append_right _ List.mem_cons_self
  · have hreceived := received_items as (.trailers (some e) :: rest)
    rw [← hr] at hreceived
    rw [hreceived]
    refine ⟨?_, Or.inr (Or.inr ⟨e, rfl, ?_⟩)⟩
    · rw [show (received (.trailers (some e) :: rest)).1 = [] from rfl, List.append_nil]
      exact hread as has
    · rcases hcause with hfailed | hbroken
      · have hmem : Except.error e ∈ p.stream.accepted :=
          hfailed.subset (List.mem_append_right _ List.mem_cons_self)
        rcases hacc with hacc | ⟨e', hreader, hacc⟩
        · rw [hacc] at hmem
          simp at hmem
        · rw [hacc] at hmem
          refine Or.inr ⟨e', hreader, ?_⟩
          simpa using hmem
      · exact Or.inl hbroken

theorem whole_of_success (h : Reachable f p) (hend : (received p.stream.read).2 = some none) :
    p.reader = .aborted ∨ f = .file (received p.stream.read).1.flatten := by
  rcases (received_cases h).2 with hnone | ⟨-, hwhole⟩ | ⟨st, hst, -⟩
  · cases hend.symm.trans hnone
  · exact hwhole
  · cases hend.symm.trans hst

theorem cause_of_status (h : Reachable f p) {st : Status}
    (hend : (received p.stream.read).2 = some (some st)) :
    p.stream.connection = .broken st ∨ ∃ e, p.reader = .failed e ∧ st = readStatus e := by
  rcases (received_cases h).2 with hnone | ⟨hsuccess, -⟩ | ⟨st', hst', hcause⟩
  · cases hend.symm.trans hnone
  · cases hend.symm.trans hsuccess
  · obtain rfl : st = st' := Option.some.inj (Option.some.inj (hend.symm.trans hst'))
    exact hcause

/-- **What the caller may conclude.** In whatever order the parties act: the bytes that have been
read are the beginning of the file; if the stream has ended with success, they are the whole file or
the task was lost; and if it has ended with a status, a read failed or the connection is broken. -/
theorem fetch_view (h : Reachable f p) :
    (received p.stream.read).1.flatten <+: f.bytes ∧
      ((received p.stream.read).2 = some none →
        p.reader = .aborted ∨ f = .file (received p.stream.read).1.flatten) ∧
      ∀ st, (received p.stream.read).2 = some (some st) → p.stream.connection = .broken st ∨
        ∃ e, p.reader = .failed e ∧ st = readStatus e :=
  ⟨(received_cases h).1, whole_of_success h, fun _ => cause_of_status h⟩

/-! ## That the caller gets it -/

/-- The steps that are left while the file can be read and the connection holds. -/
def isOwn : FetchEvent → Bool
  | .read _ | .send | .transport .forward | .transport .deliver => true
  | _ => false

/-- The task is not lost, and no read has failed. -/
def isGoing : Reader → Bool
  | .reading _ | .sending _ _ | .eof => true
  | _ => false

/-- What is left to do. -/
def readerRank : Reader → ℕ
  | .reading rest => 4 * rest.length + 1
  | .sending chunk rest => 4 * (chunk.length + rest.length)
  | _ => 0

def rank (p : Fetch) : ℕ := ServerStream.rank p.stream + readerRank p.reader

/-- Such a step leaves less to do, and the transfer goes on. -/
theorem step_own {ev : FetchEvent} (h : Honest f p) (hconn : p.stream.connection = .holds)
    (hgoing : isGoing p.reader = true) (hev : isOwn ev = true) (hstep : step p ev = some p') :
    rank p' < rank p ∧ p'.stream.connection = .holds ∧ isGoing p'.reader = true := by
  obtain ⟨reader, s⟩ := p
  have htransport : ∀ ev : Event Chunk Status, ev = .forward ∨ ev = .deliver →
      step ⟨reader, s⟩ (.transport ev) = some p' → rank p' < rank ⟨reader, s⟩ ∧
        p'.stream.connection = .holds ∧ isGoing p'.reader = true := by
    intro ev hev hstep
    have htr : ev.isTransport = true := by
      rcases hev with rfl | rfl
      · rfl
      · rfl
    unfold step at hstep
    dsimp only at hstep
    rw [htr, if_pos rfl] at hstep
    obtain ⟨s', hs', rfl⟩ := Option.map_eq_some_iff.mp hstep
    exact ⟨Nat.add_lt_add_right (rank_step hev hs') _,
      (step_connection hev hs').trans hconn, hgoing⟩
  rcases ev with n | e | _ | _ | ev
  · rcases reader with rest | _ | ⟨chunk, rest⟩ | e | _ | e | _ | _
    case reading =>
      unfold step at hstep
      dsimp only at hstep
      split at hstep
      · split at hstep
        · obtain ⟨-, rfl⟩ := leave_eq hstep
          refine ⟨?_, hconn, rfl⟩
          show ServerStream.rank s + 0 < ServerStream.rank s + (4 * rest.length + 1)
          omega
        · cases hstep
      · split at hstep
        · cases hstep
        · obtain rfl := Option.some.inj hstep
          refine ⟨?_, hconn, rfl⟩
          show ServerStream.rank s + 4 * ((rest.take n).length + (rest.drop n).length) <
            ServerStream.rank s + (4 * rest.length + 1)
          rw [List.length_take, List.length_drop]
          omega
    all_goals cases hstep
  · cases hev
  · rcases reader with rest | _ | ⟨chunk, rest⟩ | e | _ | e | _ | _
    case sending =>
      obtain ⟨hbooks, hsender, hne, hcarries⟩ := h
      obtain ⟨s', hs', hnext⟩ := Option.bind_eq_some_iff.mp hstep
      have hopen : s.receiver = true :=
        hbooks.receiver_of_holds hconn hsender hcarries.part.error_notMem
      rw [if_pos hopen] at hnext
      obtain rfl := Option.some.inj hnext
      rcases step_send hs' with ⟨hgone, -⟩ | ⟨-, rfl⟩
      · rw [hopen] at hgone
        cases hgone
      · refine ⟨?_, hconn, rfl⟩
        show ServerStream.rank (s.push _) + (4 * rest.length + 1) <
          ServerStream.rank s + 4 * (chunk.length + rest.length)
        have hpos := List.length_pos_iff.mpr hne
        rw [rank_push]
        omega
    all_goals cases hgoing
    all_goals cases hstep
  · cases hev
  · rcases ev with _ | _ | _ | _ | _ | _ | _ | _
    case forward => exact htransport _ (Or.inl rfl) hstep
    case deliver => exact htransport _ (Or.inr rfl) hstep
    all_goals cases hev

/-- If none of these steps is possible, the file has been read to its end. -/
theorem Honest.sender_of_stuck (h : Honest f p) (hconn : p.stream.connection = .holds)
    (hgoing : isGoing p.reader = true)
    (hstuck : ∀ ev, isOwn ev = true → Fetch.step p ev = none) : p.stream.sender = false := by
  obtain ⟨reader, s⟩ := p
  rcases reader with rest | _ | ⟨chunk, rest⟩ | e | _ | e | _ | _
  case eof => exact h.tells.1
  case reading =>
    have hread := hstuck (.read rest.length) rfl
    unfold Fetch.step at hread
    dsimp only at hread
    split at hread
    · next hend =>
      have hclose :=
        Option.map_eq_none_iff.mp (show leave .eof s = none by simpa [hend] using hread)
      unfold ServerStream.step at hclose
      rw [show s.sender = true from h.tells.1] at hclose
      cases hclose
    · next hne =>
      have hpos := List.length_pos_iff.mpr hne
      rw [if_neg (by omega)] at hread
      cases hread
  case sending =>
    obtain ⟨hbooks, hsender, -, hcarries⟩ := h
    have hopen : s.receiver = true :=
      hbooks.receiver_of_holds hconn hsender hcarries.part.error_notMem
    have hforward := Option.map_eq_none_iff.mp (hstuck (.transport .forward) rfl)
    have hsend := hstuck .send rfl
    rcases hqueue : s.queue with _ | ⟨_ | _, _⟩
    · have hroom : ServerStream.step walChannel s (.send (.ok chunk)) =
          some (s.push (.ok chunk)) := by
        unfold ServerStream.step
        rw [show s.sender = true from hsender, hopen, hqueue]
        rfl
      unfold Fetch.step at hsend
      dsimp only at hsend
      rw [hroom, Option.bind_some, if_pos hopen] at hsend
      cases hsend
    · unfold ServerStream.step at hforward
      rw [hopen, hqueue] at hforward
      cases hforward
    · unfold ServerStream.step at hforward
      rw [hopen, hqueue] at hforward
      cases hforward
  all_goals cases hgoing

/-- **The caller gets the file.** The channel of four places does not hold the transfer up: from any
state in which the task is not lost, no read has failed and the connection holds, only so many steps
are left; and when none is left, the caller has read the whole file and the end of the stream. -/
theorem fetch_completes (h : Reachable f p) (hconn : p.stream.connection = .holds)
    (hgoing : isGoing p.reader = true) {evs : List FetchEvent}
    (hown : ∀ ev ∈ evs, isOwn ev = true) (hrun : Trace.run step p evs = some p') :
    evs.length ≤ rank p ∧ ((∀ ev, isOwn ev = true → step p' ev = none) →
      (received p'.stream.read).2 = some none ∧
      f = .file (received p'.stream.read).1.flatten) := by
  induction evs generalizing p with
  | nil =>
    obtain rfl := Option.some.inj hrun
    refine ⟨Nat.zero_le _, fun hstuck => ?_⟩
    have hsender := h.honest.sender_of_stuck hconn hgoing hstuck
    have hforward := Option.map_eq_none_iff.mp (hstuck (.transport .forward) rfl)
    have hdeliver := Option.map_eq_none_iff.mp (hstuck (.transport .deliver) rfl)
    obtain ⟨as, st, hended⟩ := h.honest.books.ended hconn hsender hforward hdeliver
    have hreceived : (received p.stream.read).2 = some st := by
      rw [hended, received_items]
      rfl
    rcases st with _ | st
    · refine ⟨hreceived, ?_⟩
      rcases whole_of_success h hreceived with haborted | hfile
      · rw [haborted] at hgoing
        cases hgoing
      · exact hfile
    · rcases cause_of_status h hreceived with hbroken | ⟨e, hfailed, -⟩
      · rw [hconn] at hbroken
        cases hbroken
      · rw [hfailed] at hgoing
        cases hgoing
  | cons ev evs ih =>
    obtain ⟨p₁, hstep, hrest⟩ := Option.bind_eq_some_iff.mp hrun
    obtain ⟨hrank, hsame, hstill⟩ :=
      step_own h.honest hconn hgoing (hown ev List.mem_cons_self) hstep
    obtain ⟨hlength, hdone⟩ := ih (h.step ev hstep) hsame hstill
      (fun ev' hev' => hown ev' (List.mem_cons_of_mem ev hev')) hrest
    refine ⟨?_, hdone⟩
    rw [List.length_cons]
    omega

end View

/-! ## What is installed -/

/-- What `write_restore` copies: the pieces as they come, until the stream ends; `display` is how a
status is printed. -/
def source (display : Status → String) (p : Fetch) : WalStore.Source where
  chunks := (received p.stream.read).1
  error :=
    match (received p.stream.read).2 with
    | some (some st) => some (.other (display st))
    | _ => none

/-- A stream that is read to its end without an error has ended with success. -/
theorem success_of_source {display : Status → String} {p : Fetch}
    (hend : (received p.stream.read).2 ≠ none) (herror : (source display p).error = none) :
    (received p.stream.read).2 = some none := by
  unfold source at herror
  rcases hr : (received p.stream.read).2 with _ | _ | st
  · exact absurd hr hend
  · rfl
  · rw [hr] at herror
    cases herror

/-- **What is installed.** A peer opened the file for a request, its task and the transport have
acted in whatever order, and the caller has read to the end of the stream.  If `write_restore`
reports success, the destination holds the file of that name in the peer's archive, byte for byte,
and nothing else is changed; or the peer lost the task in the middle of the file. -/
theorem fetch_restores {debug : String → String} {display : Status → String} {archiveDir : Path}
    {peerFs : FileTree} {peerCwd : RealPath} {failure : Option String}
    {walFile : String} {f : Opened}
    {p : Fetch} (hserved : serverFetchWal debug archiveDir peerFs peerCwd failure walFile = .ok f)
    (h : Reachable f p) (hend : (received p.stream.read).2 ≠ none) {store : WalStore.FileWalStore}
    {cwd : RealPath} {aw : WalStore.Awaits} {dest : Path} {fs : FileTree}
    (hok : (WalStore.writeRestore store cwd aw dest (source display p) fs).1 = .ok ()) :
    p.reader = .aborted ∨ ∃ dir base bytes,
      peerFs.readFile peerCwd (archiveDir.join (Path.ofName walFile)) = some bytes ∧
      WalStore.destination store cwd fs dest = some (dir, base) ∧
      ∀ q, (WalStore.writeRestore store cwd aw dest (source display p) fs).2.node q =
        if q = dir ++ [base] then some (.file fs.next bytes) else fs.node q := by
  rcases WalStore.writeRestore_cases store cwd aw dest (source display p) fs with
    ⟨-, o, fs', heq, ho, -⟩ | ⟨-, herror, dir, base, fs', heq, hdest, -, hnode⟩ |
    ⟨-, o, fs', heq, ho, -⟩
  · rw [heq] at hok
    exact absurd hok ho
  · rcases whole_of_success h (success_of_source hend herror) with haborted | hfile
    · exact Or.inl haborted
    · refine Or.inr ⟨dir, base, (source display p).bytes, ?_, hdest, fun q => ?_⟩
      · rw [hfile] at hserved
        exact readFile_of_serverFetchWal hserved
      · rw [heq]
        exact hnode q
  · rw [heq] at hok
    exact absurd hok ho

/-! ## A run -/

/-- An archive with one segment. -/
def archiveTree : FileTree :=
  FileTree.ofNodes [⟨[], .dir⟩, ⟨["archive"], .dir⟩,
    ⟨["archive", "000000010000000000000001"], .file 0 [1, 2, 3]⟩].toAList 1 (by decide +kernel)

/-- The segment is read in two pieces. -/
def segmentSteps : List FetchEvent :=
  [.read 2, .send, .read 1, .transport .forward, .send, .read 0, .transport .forward,
    .transport .forward, .transport .deliver, .transport .deliver, .transport .deliver]

def segmentRead : Fetch where
  reader := .eof
  stream :=
    { queue := []
      sender := false
      receiver := false
      connection := .holds
      wire := []
      read := [.item [1, 2], .item [3], .trailers none]
      accepted := [.ok [1, 2], .ok [3]]
      sent := [.item [1, 2], .item [3], .trailers none] }

theorem run_segmentSteps :
    Trace.run step (init (.file [1, 2, 3])) segmentSteps = some segmentRead :=
  rfl

theorem reachable_init {f : Opened} : Reachable f (init f) := .init rfl

/-- The caller may conclude from the end of the stream that it has the whole segment. -/
theorem fetch_view_segment :
    (received segmentRead.stream.read).1.flatten <+: [1, 2, 3] ∧
      [1, 2, 3] = (received segmentRead.stream.read).1.flatten := by
  obtain ⟨hfront, hwhole, -⟩ := fetch_view (reachable_init.run run_segmentSteps)
  refine ⟨hfront, ?_⟩
  rcases hwhole rfl with haborted | hfile
  · cases haborted
  · exact Opened.file.inj hfile

theorem stuck_segmentRead (ev : FetchEvent) (h : isOwn ev = true) : step segmentRead ev = none := by
  cases ev with
  | transport ev =>
    cases ev with
    | forward => rfl
    | deliver => rfl
    | _ => cases h
  | read n => rfl
  | send => rfl
  | _ => cases h

/-- The caller gets the segment, after that many steps. -/
theorem fetch_completes_segment :
    segmentSteps.length ≤ rank (init (.file [1, 2, 3])) ∧
      (received segmentRead.stream.read).2 = some none ∧
      Opened.file [1, 2, 3] = .file (received segmentRead.stream.read).1.flatten := by
  obtain ⟨hlength, hdone⟩ :=
    fetch_completes reachable_init rfl rfl (by decide) run_segmentSteps
  exact ⟨hlength, hdone stuck_segmentRead⟩

end Fetch

end WalFetch
end PgAgent
