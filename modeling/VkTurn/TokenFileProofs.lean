import VkTurn.SessionAuthProofs
import VkTurn.GoMapProofs

/-! # The token file

    `LoadOrCreateTokenFile` loads the server's token, or makes one and publishes it
    under the path.  Several server processes may do this at once on a path that
    does not exist yet.  A process writes its token to a temporary file and LINKS it to
    the path; the link fails if the path exists, and the loser loads the winner's.

    A directory maps names to inodes, so that a temporary name and the path can be
    two names of one file.  Every call to the operating system is a step of its own
    and may fail with any error; a failed write may have written a part; a process
    may stop anywhere, its deferred `os.Remove` undone.

    The argument is a rely–guarantee one.  `Guarantee` says what a process does to
    the files of the others (nothing) and to the path (at most: bind it, if unbound,
    to a finished file of its own).  Every step meets it (`moves_guarantee`) and
    every assertion about a process survives it (`stable`). -/

namespace VkTurnTokenFile

open ThreadPool GoText GoMap VkTurnSessionAuth

/-! ## Files -/

/-- `os.FileMode`. -/
abbrev FileMode := UInt32

/-- `os.ModeSymlink`. -/
def modeSymlink : FileMode := 0x8000000

/-- `os.ModeType`: directory, symbolic link, named pipe, socket, device, character
    device, irregular. -/
def modeType : FileMode :=
  0x80000000 ||| modeSymlink ||| 0x2000000 ||| 0x1000000 ||| 0x4000000 ||| 0x200000 ||| 0x80000

/-- `mode.Perm()`. -/
def perm (mode : FileMode) : FileMode := mode &&& 0o777

/-- A file.  Which process made it is not read by anybody. -/
structure Inode where
  mode : FileMode
  content : Bytes
  creator : Nat
  deriving DecidableEq

/-- The directory that the path is in. -/
structure FileSystem where
  inodes : List Inode
  dir : Map Bytes Nat

/-- The system the processes run on: `runtime.GOOS`, the umask, and
    `filepath.Base`, the name of a path's entry in its directory. -/
structure Host where
  windows : Bool
  umask : FileMode
  base : Bytes → Bytes

/-- The permissions a file has after they were set.  Windows only has a read-only
    flag. -/
def Host.permissions (host : Host) (mode : FileMode) : FileMode :=
  if host.windows then (if mode &&& 0o200 = 0 then 0o444 else 0o666) else mode

/-- What `errors.Is` finds in an error of the operating system. -/
inductive OsError where
  | notExist
  | exist
  | other
  deriving DecidableEq

/-- `os.Lstat`. -/
def FileSystem.lstat (fs : FileSystem) (name : Bytes) : Except OsError FileMode :=
  match (get fs.dir name).bind (fs.inodes[·]?) with
  | none => .error .notExist
  | some node => .ok node.mode

/-- `os.ReadFile`. -/
def FileSystem.readFile (fs : FileSystem) (name : Bytes) : Except OsError Bytes :=
  match (get fs.dir name).bind (fs.inodes[·]?) with
  | none => .error .notExist
  | some node => .ok node.content

/-- A new file with a name of its own (`O_CREATE|O_EXCL`). -/
def FileSystem.create (fs : FileSystem) (name : Bytes) (node : Inode) : FileSystem where
  inodes := fs.inodes ++ [node]
  dir := insert fs.dir name fs.inodes.length

/-- Change a file. -/
def FileSystem.modify (fs : FileSystem) (ino : Nat) (f : Inode → Inode) : FileSystem :=
  { fs with inodes := fs.inodes.modify ino f }

/-- A second name for a file. -/
def FileSystem.link (fs : FileSystem) (name : Bytes) (ino : Nat) : FileSystem :=
  { fs with dir := insert fs.dir name ino }

/-- `os.Remove`. -/
def FileSystem.remove (fs : FileSystem) (name : Bytes) : FileSystem :=
  { fs with dir := delete fs.dir name }

/-! ## `LoadTokenFile` -/

def encodedTokenSize : Nat := tokenBytes * 2

/-- `Token{}`. -/
def zeroToken : Token := ⟨List.replicate tokenBytes 0, List.length_replicate ..⟩

/-- The errors of both functions: "client authentication token file is required",
    "stat client authentication token file: %w", "client authentication token path
    must not be a symbolic link", "client authentication token path is not a regular
    file", "client authentication token file permissions %04o are too broad; use 0600",
    "read client authentication token file: %w", "client authentication token must
    contain exactly %d hexadecimal characters", "decode client authentication token:
    %w", "client authentication token must not be all zeroes", "generate client
    authentication token: %w", "create temporary client authentication token file:
    %w", "set client authentication token file permissions: %w", "write client
    authentication token file: %w", "close client authentication token file: %w" and
    "publish client authentication token file atomically: %w". -/
inductive TokenError where
  | required
  | stat (e : OsError)
  | symbolicLink
  | notRegular
  | tooBroad (perm : FileMode)
  | read (e : OsError)
  | size
  | decode (e : HexError)
  | zeroes
  | generate (e : OsError)
  | createTemp (e : OsError)
  | setPermissions (e : OsError)
  | write (e : OsError)
  | close (e : OsError)
  | publish (e : OsError)
  deriving DecidableEq

/-- `errors.Is(err, os.ErrNotExist)`, for the errors of `LoadTokenFile`. -/
def TokenError.isNotExist : TokenError → Bool
  | .stat e => e == .notExist
  | .read e => e == .notExist
  | _ => false

/-- The checks of what `Lstat` found. -/
def checkMode (host : Host) (mode : FileMode) : Option TokenError :=
  if mode &&& modeSymlink ≠ 0 then some .symbolicLink
  else if mode &&& modeType ≠ 0 then some .notRegular
  else if !host.windows && perm mode &&& 0o077 ≠ 0 then some (.tooBroad (perm mode))
  else none

/-- `copy(token[:], decoded)`, into a new token. -/
def copyToken (decoded : Bytes) : Token where
  bytes := (decoded ++ List.replicate tokenBytes 0).take tokenBytes
  size := by rw [List.length_take, List.length_append, List.length_replicate]; omega

/-- What `LoadTokenFile` makes of the bytes it read. -/
def decodeToken (encoded : Bytes) : Except TokenError Token :=
  let normalized := trimSpace encoded
  if normalized.length ≠ encodedTokenSize then .error .size
  else
    match hexDecode normalized with
    | .error e => .error (.decode e)
    | .ok decoded =>
        let token := copyToken decoded
        if constantTimeCompare token.bytes zeroToken.bytes = 1 then .error .zeroes
        else .ok token

/-- `LoadTokenFile`, when nothing happens in between. -/
def loadTokenFile (host : Host) (fs : FileSystem) (path : Bytes) : Except TokenError Token :=
  let path := trimSpace path
  if path = [] then .error .required
  else
    match fs.lstat (host.base path) with
    | .error e => .error (.stat e)
    | .ok mode =>
        match checkMode host mode with
        | some e => .error e
        | none =>
            match fs.readFile (host.base path) with
            | .error e => .error (.read e)
            | .ok encoded => decodeToken encoded

/-- The line that is written for a token. -/
def Token.line (token : Token) : Bytes := hexEncode token.bytes ++ ascii "\n"

/-- **TOKEN ROUND TRIP**: what is written for a token decodes to it. -/
theorem decodeToken_line {token : Token} (hne : token ≠ zeroToken) :
    decodeToken (Token.line token) = .ok token := by
  have hbytes : token.bytes ≠ [] := by
    intro hnil
    have hsize := token.size
    rw [hnil] at hsize
    cases hsize
  have hword := word_hexEncode hbytes
  have htrim : trimSpace (Token.line token) = hexEncode token.bytes :=
    trimSpace_newline hword.ascii (fun b hb => hword.visible b (List.mem_of_head? hb))
      (fun b hb => hword.visible b (List.mem_of_getLast? hb)) hword.nonempty
  have hsize : (hexEncode token.bytes).length = encodedTokenSize := by
    rw [hexEncode_length, token.size, encodedTokenSize, Nat.mul_comm]
  have hcopy : copyToken token.bytes = token :=
    Token.ext (List.take_left' token.size)
  have hzero : ¬ constantTimeCompare token.bytes zeroToken.bytes = 1 := fun h =>
    hne (Token.ext (constantTimeCompare_eq_one.mp h))
  rw [decodeToken, htrim, if_neg (not_not.mpr hsize), hexDecode_hexEncode]
  simp only [hcopy]
  rw [if_neg hzero]

/-- The mode of a token file. -/
def Host.tokenMode (host : Host) : FileMode := host.permissions 0o600

/-- The permissions that `Chmod(0o600)` leaves pass the checks. -/
theorem checkMode_private (host : Host) : checkMode host host.tokenMode = none := by
  have hmode : host.tokenMode = if host.windows then 0o666 else 0o600 := rfl
  rw [checkMode, hmode]
  cases host.windows <;> decide

/-! ## `LoadOrCreateTokenFile` -/

/-- A process's temporary file, and the token that it writes to it. -/
structure Temp where
  token : Token
  name : Bytes
  ino : Nat
  deriving DecidableEq

/-- What the function returns: the token and `created`, or an error (with `Token{}`
    and false). -/
abbrev Result := Except TokenError (Token × Bool)

/-- The two calls of `LoadTokenFile`: at the start, and when the path turned out to
    exist. -/
inductive Load where
  | first
  | again (f : Temp)
  deriving DecidableEq

/-- Where a process is. -/
inductive Pc where
  | start
  | lstat (l : Load)
  | opening (l : Load)
  | reading (l : Load) (ino : Nat)
  | random
  | createTemp (token : Token)
  | chmod (f : Temp)
  | write (f : Temp)
  | sync (f : Temp)
  | closing (f : Temp) (err : Option TokenError)
  | link (f : Temp)
  | removing (f : Temp) (r : Result)
  | returned (r : Result)
  | stopped

/-- The call of `LoadTokenFile` that a process is in. -/
def Pc.loading : Pc → Option Load
  | .lstat l => some l
  | .opening l => some l
  | .reading l _ => some l
  | _ => none

/-- What the call returns, from its `return` statement on. -/
def Pc.result : Pc → Option Result
  | .removing _ r => some r
  | .returned r => some r
  | _ => none

/-- What the system answers: the call succeeds, it fails (a write after so many
    bytes), the random bytes, the `*` of a temporary name; or the process is stopped. -/
inductive Choice where
  | go
  | fail (e : OsError)
  | short (written : Nat) (e : OsError)
  | bytes (token : Token)
  | name (star : Bytes)
  | stop
  deriving DecidableEq

/-- `"."+filepath.Base(path)+".tmp-*"`. -/
def tempName (base star : Bytes) : Bytes := ascii "." ++ base ++ ascii ".tmp-" ++ star

/-- How the function goes on from a call of `LoadTokenFile`. -/
def Load.finish : Load → Except TokenError Token → Pc
  | .first, .ok token => .returned (.ok (token, false))
  | .first, .error e => if e.isNotExist then .random else .returned (.error e)
  | .again f, r => .removing f (r.map (·, false))

section Process

variable (host : Host) (path : Bytes)

/-- The name that the path is bound under. -/
def entry : Bytes := host.base (trimSpace path)

/-- One call to the operating system. -/
def exec (i : Nat) (fs : FileSystem) (t : Pc) (a : Choice) :
    Option (FileSystem × Pc × List Pc) :=
  match t, a with
  | .returned _, _ => none
  | .stopped, _ => none
  | _, .stop => some (fs, .stopped, [])
  | .start, .go =>
      if trimSpace path = [] then some (fs, .returned (.error .required), [])
      else some (fs, .lstat .first, [])
  | .lstat l, .go =>
      -- `LoadTokenFile` trims the trimmed path once more
      if trimSpace (trimSpace path) = [] then some (fs, l.finish (.error .required), [])
      else
        match fs.lstat (entry host (trimSpace path)) with
        | .error e => some (fs, l.finish (.error (.stat e)), [])
        | .ok mode =>
            match checkMode host mode with
            | some e => some (fs, l.finish (.error e), [])
            | none => some (fs, .opening l, [])
  | .lstat l, .fail e => some (fs, l.finish (.error (.stat e)), [])
  | .opening l, .go =>
      match get fs.dir (entry host (trimSpace path)) with
      | none => some (fs, l.finish (.error (.read .notExist)), [])
      | some ino => some (fs, .reading l ino, [])
  | .opening l, .fail e => some (fs, l.finish (.error (.read e)), [])
  | .reading l ino, .go =>
      match fs.inodes[ino]? with
      | none => none
      | some node => some (fs, l.finish (decodeToken node.content), [])
  | .reading l _, .fail e => some (fs, l.finish (.error (.read e)), [])
  | .random, .bytes token => some (fs, .createTemp token, [])
  | .random, .fail e => some (fs, .returned (.error (.generate e)), [])
  | .createTemp token, .name star =>
      let name := tempName (entry host path) star
      match get fs.dir name with
      | some _ => none
      | none =>
          some (fs.create name ⟨host.permissions (0o600 &&& ~~~host.umask), [], i⟩,
            .chmod ⟨token, name, fs.inodes.length⟩, [])
  | .createTemp _, .fail e => some (fs, .returned (.error (.createTemp e)), [])
  | .chmod f, .go => some (fs.modify f.ino ({ · with mode := host.tokenMode }), .write f, [])
  | .chmod f, .fail e => some (fs, .closing f (some (.setPermissions e)), [])
  | .write f, .go =>
      some (fs.modify f.ino (fun x => { x with content := x.content ++ Token.line f.token }),
        .sync f, [])
  | .write f, .short k e =>
      some (fs.modify f.ino
          (fun x => { x with content := x.content ++ (Token.line f.token).take k }),
        .closing f (some (.write e)), [])
  | .sync f, .go => some (fs, .closing f none, [])
  | .sync f, .fail e => some (fs, .closing f (some (.write e)), [])
  | .closing f none, .go => some (fs, .link f, [])
  | .closing f none, .fail e => some (fs, .removing f (.error (.close e)), [])
  | .closing f (some err), .go => some (fs, .removing f (.error err), [])
  | .closing f (some err), .fail _ => some (fs, .removing f (.error err), [])
  | .link f, .go =>
      match get fs.dir f.name, get fs.dir (entry host path) with
      | none, _ => some (fs, .removing f (.error (.publish .notExist)), [])
      | some _, some _ => some (fs, .lstat (.again f), [])
      | some ino, none =>
          some (fs.link (entry host path) ino, .removing f (.ok (f.token, true)), [])
  | .link f, .fail e =>
      some (fs, if e = .exist then .lstat (.again f) else .removing f (.error (.publish e)), [])
  | .removing f r, .go => some (fs.remove f.name, .returned r, [])
  | .removing _ r, .fail _ => some (fs, .returned r, [])
  | _, _ => none

/-- A process calls the function. -/
def outside (fs : FileSystem) (_ : Unit) : Option (FileSystem × List Pc) := some (fs, [.start])

def tokenMachine : Machine FileSystem Pc Choice Unit where
  exec := exec host path
  env := outside

abbrev Processes := Pool FileSystem Pc

def tokenStep : Processes → Act Choice Unit → Option Processes := (tokenMachine host path).step

/-- The random bytes of a step. -/
def drawn : Act Choice Unit → Option Token
  | .run _ (.bytes token) => some token
  | _ => none

/-- The random bytes are not all zero. -/
def nonzeroRandom (_ : Processes) (a : Act Choice Unit) : Prop := drawn a ≠ some zeroToken

instance (s : Processes) (a : Act Choice Unit) : Decidable (nonzeroRandom s a) :=
  inferInstanceAs (Decidable (drawn a ≠ some zeroToken))

end Process

variable {host : Host} {path : Bytes} {i j : Nat} {a : Choice} {fs fs' : FileSystem} {t t' : Pc}

/-- What one call can do. -/
inductive Moves (host : Host) (path : Bytes) (i : Nat) (a : Choice) (fs : FileSystem) :
    Pc → FileSystem → Pc → Prop where
  | stopped (t : Pc) : Moves host path i a fs t fs .stopped
  | refused : Moves host path i a fs .start fs (.returned (.error .required))
  | entered : trimSpace path ≠ [] → Moves host path i a fs .start fs (.lstat .first)
  | notLoaded (l : Load) (e : TokenError) (t : Pc) : t.loading = some l →
      Moves host path i a fs t fs (l.finish (.error e))
  | statted (l : Load) : Moves host path i a fs (.lstat l) fs (.opening l)
  | opened (l : Load) (ino : Nat) : get fs.dir (entry host path) = some ino →
      Moves host path i a fs (.opening l) fs (.reading l ino)
  | read (l : Load) (ino : Nat) (node : Inode) : fs.inodes[ino]? = some node →
      Moves host path i a fs (.reading l ino) fs (l.finish (decodeToken node.content))
  | drew (token : Token) : a = .bytes token →
      Moves host path i a fs .random fs (.createTemp token)
  | notDrawn (e : OsError) : Moves host path i a fs .random fs (.returned (.error (.generate e)))
  | made (token : Token) (star : Bytes) (mode : FileMode) :
      get fs.dir (tempName (entry host path) star) = none →
      Moves host path i a fs (.createTemp token)
        (fs.create (tempName (entry host path) star) ⟨mode, [], i⟩)
        (.chmod ⟨token, tempName (entry host path) star, fs.inodes.length⟩)
  | notMade (token : Token) (e : OsError) :
      Moves host path i a fs (.createTemp token) fs (.returned (.error (.createTemp e)))
  | modeSet (f : Temp) :
      Moves host path i a fs (.chmod f) (fs.modify f.ino ({ · with mode := host.tokenMode }))
        (.write f)
  | modeNotSet (f : Temp) (e : OsError) :
      Moves host path i a fs (.chmod f) fs (.closing f (some (.setPermissions e)))
  | wrote (f : Temp) :
      Moves host path i a fs (.write f)
        (fs.modify f.ino fun x => { x with content := x.content ++ Token.line f.token }) (.sync f)
  | wroteShort (f : Temp) (k : Nat) (e : OsError) :
      Moves host path i a fs (.write f)
        (fs.modify f.ino fun x => { x with content := x.content ++ (Token.line f.token).take k })
        (.closing f (some (.write e)))
  | synced (f : Temp) : Moves host path i a fs (.sync f) fs (.closing f none)
  | notSynced (f : Temp) (e : OsError) :
      Moves host path i a fs (.sync f) fs (.closing f (some (.write e)))
  | closed (f : Temp) : Moves host path i a fs (.closing f none) fs (.link f)
  | closedFailed (f : Temp) (err : Option TokenError) (e : TokenError) :
      Moves host path i a fs (.closing f err) fs (.removing f (.error e))
  | linked (f : Temp) (ino : Nat) : get fs.dir f.name = some ino →
      get fs.dir (entry host path) = none →
      Moves host path i a fs (.link f) (fs.link (entry host path) ino)
        (.removing f (.ok (f.token, true)))
  | lost (f : Temp) : Moves host path i a fs (.link f) fs (.lstat (.again f))
  | notLinked (f : Temp) (e : OsError) :
      Moves host path i a fs (.link f) fs (.removing f (.error (.publish e)))
  | removed (f : Temp) (r : Result) :
      Moves host path i a fs (.removing f r) (fs.remove f.name) (.returned r)
  | notRemoved (f : Temp) (r : Result) : Moves host path i a fs (.removing f r) fs (.returned r)

/-- The name that both functions use. -/
theorem entry_trimSpace (host : Host) (path : Bytes) :
    entry host (trimSpace path) = entry host path := by
  rw [entry, trimSpace_trimSpace, entry]

theorem exec_moves {new : List Pc} (h : exec host path i fs t a = some (fs', t', new)) :
    Moves host path i a fs t fs' t' ∧ new = [] := by
  unfold exec at h
  split at h
  · cases h
  · cases h
  · cases h
    exact ⟨.stopped _, rfl⟩
  · split at h
    · cases h
      exact ⟨.refused, rfl⟩
    · cases h
      exact ⟨.entered ‹_›, rfl⟩
  · split at h
    · cases h
      exact ⟨.notLoaded _ _ _ rfl, rfl⟩
    · split at h
      · cases h
        exact ⟨.notLoaded _ _ _ rfl, rfl⟩
      · split at h
        · cases h
          exact ⟨.notLoaded _ _ _ rfl, rfl⟩
        · cases h
          exact ⟨.statted _, rfl⟩
  · cases h
    exact ⟨.notLoaded _ _ _ rfl, rfl⟩
  · rw [entry_trimSpace] at h
    split at h
    · cases h
      exact ⟨.notLoaded _ _ _ rfl, rfl⟩
    · cases h
      exact ⟨.opened _ _ ‹_›, rfl⟩
  · cases h
    exact ⟨.notLoaded _ _ _ rfl, rfl⟩
  · split at h
    · cases h
    · cases h
      exact ⟨.read _ _ _ ‹_›, rfl⟩
  · cases h
    exact ⟨.notLoaded _ _ _ rfl, rfl⟩
  · cases h
    exact ⟨.drew _ rfl, rfl⟩
  · cases h
    exact ⟨.notDrawn _, rfl⟩
  · dsimp only at h
    split at h
    · cases h
    · cases h
      exact ⟨.made _ _ _ ‹_›, rfl⟩
  · cases h
    exact ⟨.notMade _ _, rfl⟩
  · cases h
    exact ⟨.modeSet _, rfl⟩
  · cases h
    exact ⟨.modeNotSet _ _, rfl⟩
  · cases h
    exact ⟨.wrote _, rfl⟩
  · cases h
    exact ⟨.wroteShort _ _ _, rfl⟩
  · cases h
    exact ⟨.synced _, rfl⟩
  · cases h
    exact ⟨.notSynced _ _, rfl⟩
  · cases h
    exact ⟨.closed _, rfl⟩
  · cases h
    exact ⟨.closedFailed _ _ _, rfl⟩
  · cases h
    exact ⟨.closedFailed _ _ _, rfl⟩
  · cases h
    exact ⟨.closedFailed _ _ _, rfl⟩
  · split at h
    · cases h
      exact ⟨.notLinked _ _, rfl⟩
    · cases h
      exact ⟨.lost _, rfl⟩
    · cases h
      exact ⟨.linked _ _ ‹_› ‹_›, rfl⟩
  · cases h
    split
    · exact ⟨.lost _, rfl⟩
    · exact ⟨.notLinked _ _, rfl⟩
  · cases h
    exact ⟨.removed _ _, rfl⟩
  · cases h
    exact ⟨.notRemoved _ _, rfl⟩
  · cases h

/-! ## What a process guarantees -/

/-- The path is bound to this file. -/
def Bound (host : Host) (path : Bytes) (fs : FileSystem) (node : Inode) : Prop :=
  ∃ ino, get fs.dir (entry host path) = some ino ∧ fs.inodes[ino]? = some node

theorem Bound.unique {node node' : Inode} (h : Bound host path fs node)
    (h' : Bound host path fs node') : node = node' := by
  obtain ⟨ino, hino, hnode⟩ := h
  obtain ⟨ino', hino', hnode'⟩ := h'
  obtain rfl : ino = ino' := Option.some.inj (hino.symm.trans hino')
  exact Option.some.inj (hnode.symm.trans hnode')

/-- What process `i` does: the files of the others and their names stay, the path
    stays bound to what it is bound to, that file stays as it is, and a newly bound
    path is a file of `i`. -/
structure Guarantee (host : Host) (path : Bytes) (i : Nat) (fs fs' : FileSystem) : Prop where
  files : ∀ (n : Nat) (node : Inode), fs.inodes[n]? = some node → node.creator ≠ i → fs'.inodes[n]? = some node
  names : ∀ name (n : Nat) (node : Inode), get fs.dir name = some n → fs.inodes[n]? = some node →
    node.creator ≠ i → get fs'.dir name = some n
  kept : ∀ n : Nat, get fs.dir (entry host path) = some n → get fs'.dir (entry host path) = some n
  frozen : ∀ (n : Nat) (node : Inode), get fs.dir (entry host path) = some n → fs.inodes[n]? = some node →
    fs'.inodes[n]? = some node
  binds : ∀ n : Nat, get fs'.dir (entry host path) = some n →
    get fs.dir (entry host path) = some n ∨
      ∃ node : Inode, fs.inodes[n]? = some node ∧ node.creator = i

theorem Guarantee.refl (host : Host) (path : Bytes) (i : Nat) (fs : FileSystem) :
    Guarantee host path i fs fs where
  files _ _ h _ := h
  names _ _ _ h _ _ := h
  kept _ h := h
  frozen _ _ _ h := h
  binds _ h := Or.inl h

theorem tempName_ne (base star : Bytes) : tempName base star ≠ base := by
  intro h
  have hlen := congrArg List.length h
  simp only [tempName, List.length_append] at hlen
  have hdot : (ascii ".").length = 1 := rfl
  omega

/-- A file may be created under a free name other than the token file's. -/
theorem Guarantee.create {name : Bytes} (node : Inode) (hfree : get fs.dir name = none)
    (hne : name ≠ entry host path) : Guarantee host path i fs (fs.create name node) := by
  have hnames : ∀ name' n, get fs.dir name' = some n → get (fs.create name node).dir name' = some n := by
    intro name' n h
    have hne' : name' ≠ name := by
      rintro rfl
      rw [hfree] at h
      cases h
    rw [FileSystem.create, get_insert, if_neg hne', h]
  have hfiles : ∀ (n : Nat) x, fs.inodes[n]? = some x → (fs.create name node).inodes[n]? = some x := by
    intro n x h
    have hlt := (List.getElem?_eq_some_iff.mp h).1
    rw [FileSystem.create, List.getElem?_append_left hlt, h]
  refine ⟨fun n x h _ => hfiles n x h, fun name' n x h _ _ => hnames name' n h,
    fun n h => hnames _ n h, fun n x _ h => hfiles n x h, ?_⟩
  intro n h
  rw [FileSystem.create, get_insert, if_neg hne.symm] at h
  exact Or.inl h

theorem Guarantee.modify {ino : Nat} {node : Inode} (f : Inode → Inode)
    (hnode : fs.inodes[ino]? = some node) (hcreator : node.creator = i)
    (hfree : get fs.dir (entry host path) ≠ some ino) :
    Guarantee host path i fs (fs.modify ino f) := by
  have hother : ∀ n, n ≠ ino → (fs.modify ino f).inodes[n]? = fs.inodes[n]? := by
    intro n hn
    rw [FileSystem.modify, List.getElem?_modify_ne _ _ hn.symm]
  refine ⟨?_, fun _ _ _ h _ _ => h, fun _ h => h, ?_, fun _ h => Or.inl h⟩
  · intro n x hx hne
    rw [hother n, hx]
    rintro rfl
    rw [hnode] at hx
    exact hne (Option.some.inj hx ▸ hcreator)
  · intro n x hn hx
    rw [hother n, hx]
    rintro rfl
    exact hfree hn

/-- The token file may be linked where there was none. -/
theorem Guarantee.link {ino : Nat} {node : Inode} (hfree : get fs.dir (entry host path) = none)
    (hnode : fs.inodes[ino]? = some node) (hcreator : node.creator = i) :
    Guarantee host path i fs (fs.link (entry host path) ino) := by
  refine ⟨fun _ _ h _ => h, ?_, ?_, fun _ _ _ h => h, ?_⟩
  · intro name n x h _ _
    rw [FileSystem.link, get_insert, if_neg, h]
    rintro rfl
    rw [hfree] at h
    cases h
  · intro n h
    rw [hfree] at h
    cases h
  · intro n h
    rw [FileSystem.link, get_insert, if_pos rfl] at h
    obtain rfl : ino = n := Option.some.inj h
    exact Or.inr ⟨node, hnode, hcreator⟩

theorem Guarantee.remove {name : Bytes} {ino : Nat} {node : Inode}
    (hname : get fs.dir name = some ino) (hnode : fs.inodes[ino]? = some node)
    (hcreator : node.creator = i) (hne : name ≠ entry host path) :
    Guarantee host path i fs (fs.remove name) := by
  have hentry : get (fs.remove name).dir (entry host path) = get fs.dir (entry host path) := by
    rw [FileSystem.remove, get_delete, if_neg hne.symm]
  refine ⟨fun _ _ h _ => h, ?_, fun n h => hentry.trans h, fun _ _ _ h => h,
    fun n h => Or.inl (hentry.symm.trans h)⟩
  intro name' n x h hx hother
  rw [FileSystem.remove, get_delete, if_neg, h]
  rintro rfl
  obtain rfl : ino = n := Option.some.inj (hname.symm.trans h)
  rw [hnode] at hx
  exact hother (Option.some.inj hx ▸ hcreator)

/-- A token file stays what it is, whatever the others do. -/
theorem Bound.kept {node : Inode} (h : Bound host path fs node)
    (hg : Guarantee host path i fs fs') : Bound host path fs' node := by
  obtain ⟨ino, hino, hnode⟩ := h
  exact ⟨ino, hg.kept ino hino, hg.frozen ino node hino hnode⟩

/-! ## Where each process stands -/

/-- A finished token file. -/
structure Complete (host : Host) (token : Token) (node : Inode) : Prop where
  mode : node.mode = host.tokenMode
  content : node.content = Token.line token
  nonzero : token ≠ zeroToken

/-- A complete file reads back as its token. -/
theorem Complete.decodes {token : Token} {node : Inode} (h : Complete host token node) :
    decodeToken node.content = .ok token := by
  rw [h.content, decodeToken_line h.nonzero]

theorem Complete.unique {token token' : Token} {node : Inode} (h : Complete host token node)
    (h' : Complete host token' node) : token = token' :=
  Except.ok.inj (h.decodes.symm.trans h'.decodes)

/-- The process has its temporary file, under its temporary name. -/
structure Own (host : Host) (path : Bytes) (i : Nat) (fs : FileSystem) (f : Temp) : Prop where
  name : get fs.dir f.name = some f.ino
  temporary : f.name ≠ entry host path
  file : ∃ node, fs.inodes[f.ino]? = some node ∧ node.creator = i

/-- The temporary file is not published, and as far written as this. -/
structure Draft (host : Host) (path : Bytes) (i : Nat) (fs : FileSystem) (f : Temp)
    (P : Inode → Prop) : Prop where
  own : Own host path i fs f
  hidden : get fs.dir (entry host path) ≠ some f.ino
  nonzero : f.token ≠ zeroToken
  written : ∀ node, fs.inodes[f.ino]? = some node → P node

/-- A token that is returned is the one under the path, and the one who says that it
    made it did. -/
def Sound (host : Host) (path : Bytes) (i : Nat) (fs : FileSystem) (r : Result) : Prop :=
  ∀ token created, r = .ok (token, created) →
    ∃ node, Bound host path fs node ∧ Complete host token node ∧
      (created = true → node.creator = i)

theorem sound_error (e : TokenError) : Sound host path i fs (.error e) := by
  rintro token created ⟨⟩

/-- The second call of `LoadTokenFile` has a temporary file to remove after it. -/
def Held (host : Host) (path : Bytes) (i : Nat) (fs : FileSystem) : Load → Prop
  | .first => True
  | .again f => Own host path i fs f

/-- What is known where a process is. -/
def Asserted (host : Host) (path : Bytes) (i : Nat) (fs : FileSystem) : Pc → Prop
  | .start => True
  | .lstat l => Held host path i fs l
  | .opening l => Held host path i fs l
  | .reading l ino => Held host path i fs l ∧ get fs.dir (entry host path) = some ino
  | .random => True
  | .createTemp token => token ≠ zeroToken
  | .chmod f => Draft host path i fs f fun node => node.content = []
  | .write f => Draft host path i fs f fun node => node.mode = host.tokenMode ∧ node.content = []
  | .sync f => Draft host path i fs f (Complete host f.token)
  | .closing f none => Draft host path i fs f (Complete host f.token)
  | .closing f (some _) => Own host path i fs f
  | .link f => Draft host path i fs f (Complete host f.token)
  | .removing f r => Own host path i fs f ∧ Sound host path i fs r
  | .returned r => Sound host path i fs r
  | .stopped => True

/-- Nobody else touches a process's temporary file. -/
theorem Own.stable {f : Temp} (h : Own host path j fs f) (hg : Guarantee host path i fs fs')
    (hij : i ≠ j) : Own host path j fs' f := by
  obtain ⟨node, hnode, hcreator⟩ := h.file
  have hne : node.creator ≠ i := hcreator ▸ hij.symm
  exact ⟨hg.names _ _ node h.name hnode hne, h.temporary, node, hg.files _ _ hnode hne, hcreator⟩

theorem Draft.stable {f : Temp} {P : Inode → Prop} (h : Draft host path j fs f P)
    (hg : Guarantee host path i fs fs') (hij : i ≠ j) : Draft host path j fs' f P := by
  obtain ⟨node, hnode, hcreator⟩ := h.own.file
  have hne : node.creator ≠ i := hcreator ▸ hij.symm
  refine ⟨h.own.stable hg hij, ?_, h.nonzero, ?_⟩
  · intro hbound
    rcases hg.binds _ hbound with hold | ⟨node', hnode', hi⟩
    · exact h.hidden hold
    · rw [hnode] at hnode'
      exact hne (Option.some.inj hnode' ▸ hi)
  · intro node' hnode'
    rw [hg.files _ _ hnode hne] at hnode'
    exact Option.some.inj hnode' ▸ h.written node hnode

theorem Sound.stable {r : Result} (h : Sound host path j fs r)
    (hg : Guarantee host path i fs fs') : Sound host path j fs' r := by
  intro token created hr
  obtain ⟨node, hbound, hrest⟩ := h token created hr
  exact ⟨node, hbound.kept hg, hrest⟩

theorem Held.stable {l : Load} (h : Held host path j fs l) (hg : Guarantee host path i fs fs')
    (hij : i ≠ j) : Held host path j fs' l := by
  cases l with
  | first => trivial
  | again f => exact Own.stable h hg hij

/-- **NON-INTERFERENCE**: what is known of a process survives what the others do. -/
theorem Asserted.stable (h : Asserted host path j fs t) (hg : Guarantee host path i fs fs')
    (hij : i ≠ j) : Asserted host path j fs' t := by
  cases t with
  | start => trivial
  | lstat l => exact Held.stable h hg hij
  | opening l => exact Held.stable h hg hij
  | reading l ino => exact ⟨Held.stable h.1 hg hij, hg.kept ino h.2⟩
  | random => trivial
  | createTemp token => exact h
  | chmod f | write f | sync f => exact Draft.stable h hg hij
  | closing f err =>
      cases err with
      | none => exact Draft.stable h hg hij
      | some e => exact Own.stable h hg hij
  | link f => exact Draft.stable h hg hij
  | removing f r => exact ⟨h.1.stable hg hij, h.2.stable hg⟩
  | returned r => exact Sound.stable h hg
  | stopped => trivial

/-- **WHAT A STEP DOES TO THE FILES** -/
theorem moves_guarantee (h : Moves host path i a fs t fs' t') (hA : Asserted host path i fs t) :
    Guarantee host path i fs fs' := by
  cases h with
  | made token star mode hfree => exact .create _ hfree (tempName_ne _ _)
  | modeSet f =>
      obtain ⟨node, hnode, hcreator⟩ := hA.own.file
      exact .modify _ hnode hcreator hA.hidden
  | wrote f =>
      obtain ⟨node, hnode, hcreator⟩ := hA.own.file
      exact .modify _ hnode hcreator hA.hidden
  | wroteShort f k e =>
      obtain ⟨node, hnode, hcreator⟩ := hA.own.file
      exact .modify _ hnode hcreator hA.hidden
  | linked f ino hino hfree =>
      obtain ⟨node, hnode, hcreator⟩ := hA.own.file
      obtain rfl : f.ino = ino := Option.some.inj (hA.own.name.symm.trans hino)
      exact .link hfree hnode hcreator
  | removed f r =>
      obtain ⟨node, hnode, hcreator⟩ := hA.1.file
      exact .remove hA.1.name hnode hcreator hA.1.temporary
  | _ => exact .refl ..

/-- What is under the path is a finished token file. -/
def Published (host : Host) (path : Bytes) (fs : FileSystem) : Prop :=
  ∀ ino, get fs.dir (entry host path) = some ino →
    ∃ node token, fs.inodes[ino]? = some node ∧ Complete host token node

/-- The path gets bound by the link of a draft. -/
theorem moves_binds (h : Moves host path i a fs t fs' t') (hA : Asserted host path i fs t)
    {ino : Nat} (hino : get fs'.dir (entry host path) = some ino) :
    get fs.dir (entry host path) = some ino ∨
      ∃ f, t = .link f ∧ t' = .removing f (.ok (f.token, true)) ∧ ino = f.ino ∧
        fs'.inodes = fs.inodes := by
  cases h with
  | made token star mode hfree =>
      rw [FileSystem.create, get_insert, if_neg (tempName_ne _ _).symm] at hino
      exact Or.inl hino
  | linked f n hn hfree =>
      rw [FileSystem.link, get_insert, if_pos rfl] at hino
      obtain rfl : n = ino := Option.some.inj hino
      exact Or.inr ⟨f, rfl, rfl, Option.some.inj (hn.symm.trans hA.own.name), rfl⟩
  | removed f r =>
      rw [FileSystem.remove, get_delete, if_neg hA.1.temporary.symm] at hino
      exact Or.inl hino
  | _ => exact Or.inl hino

/-- What a step publishes is complete. -/
theorem moves_published (h : Moves host path i a fs t fs' t') (hA : Asserted host path i fs t)
    (hI : Published host path fs) : Published host path fs' := by
  intro ino hino
  rcases moves_binds h hA hino with hold | ⟨f, rfl, -, rfl, hinodes⟩
  · obtain ⟨node, token, hnode, hcomplete⟩ := hI ino hold
    exact ⟨node, token, (moves_guarantee h hA).frozen ino node hold hnode, hcomplete⟩
  · obtain ⟨node, hnode, -⟩ := hA.own.file
    exact ⟨node, f.token, by rw [hinodes, hnode], hA.written node hnode⟩

/-- Changing one's own draft. -/
theorem Draft.modify {f : Temp} {P Q : Inode → Prop} {g : Inode → Inode}
    (h : Draft host path i fs f P) (hcreator : ∀ node, (g node).creator = node.creator)
    (hg : ∀ node, P node → Q (g node)) : Draft host path i (fs.modify f.ino g) f Q := by
  obtain ⟨node, hnode, hown⟩ := h.own.file
  have hnew : (fs.modify f.ino g).inodes[f.ino]? = some (g node) := by
    rw [FileSystem.modify, List.getElem?_modify_eq, hnode]
    rfl
  refine ⟨⟨h.own.name, h.own.temporary, g node, hnew, (hcreator node).trans hown⟩, h.hidden,
    h.nonzero, ?_⟩
  intro node' hnode'
  rw [hnew] at hnode'
  exact Option.some.inj hnode' ▸ hg node (h.written node hnode)

/-- A new file is nobody else's, and not under the path. -/
theorem draft_create {token : Token} {star : Bytes} {mode : FileMode}
    (hI : Published host path fs) (hne : token ≠ zeroToken) :
    Draft host path i (fs.create (tempName (entry host path) star) ⟨mode, [], i⟩)
      ⟨token, tempName (entry host path) star, fs.inodes.length⟩ fun node => node.content = [] := by
  have hnew : (fs.create (tempName (entry host path) star)
      ⟨mode, [], i⟩).inodes[fs.inodes.length]? = some ⟨mode, [], i⟩ :=
    List.getElem?_concat_length
  refine ⟨⟨?_, tempName_ne _ _, _, hnew, rfl⟩, ?_, hne, ?_⟩
  · rw [FileSystem.create, get_insert, if_pos rfl]
  · rw [FileSystem.create, get_insert, if_neg (tempName_ne _ _).symm]
    intro hbound
    obtain ⟨node, _, hnode, _⟩ := hI _ hbound
    exact absurd (List.getElem?_eq_some_iff.mp hnode).1 (Nat.lt_irrefl _)
  · intro node hnode
    rw [hnew] at hnode
    rw [← Option.some.inj hnode]

theorem asserted_finish {l : Load} {r : Except TokenError Token} (hl : Held host path i fs l)
    (hr : ∀ token, r = .ok token → Sound host path i fs (.ok (token, false))) :
    Asserted host path i fs (l.finish r) := by
  cases l with
  | first =>
      cases r with
      | ok token => exact hr token rfl
      | error e =>
          show Asserted host path i fs (if e.isNotExist = true then .random else .returned (.error e))
          split
          · trivial
          · exact sound_error e
  | again f =>
      refine ⟨hl, ?_⟩
      cases r with
      | ok token => exact hr token rfl
      | error e => exact sound_error e

theorem held_of_loading {l : Load} (hl : t.loading = some l) (hA : Asserted host path i fs t) :
    Held host path i fs l := by
  cases t with
  | lstat l' => exact Option.some.inj hl ▸ hA
  | opening l' => exact Option.some.inj hl ▸ hA
  | reading l' ino => exact Option.some.inj hl ▸ hA.1
  | _ => cases hl

/-- **EACH STEP ESTABLISHES THE NEXT ASSERTION** -/
theorem moves_asserted (h : Moves host path i a fs t fs' t')
    (ha : ∀ token, a = .bytes token → token ≠ zeroToken) (hI : Published host path fs)
    (hA : Asserted host path i fs t) : Asserted host path i fs' t' := by
  cases h with
  | stopped => trivial
  | refused => exact sound_error _
  | entered => trivial
  | notLoaded l e t hl =>
      exact asserted_finish (held_of_loading hl hA) fun _ hr => (by cases hr)
  | statted l => exact hA
  | opened l ino hino => exact ⟨hA, hino⟩
  | read l ino node hnode =>
      obtain ⟨hheld, hino⟩ := hA
      obtain ⟨node', token, hnode', hcomplete⟩ := hI ino hino
      obtain rfl : node = node' := Option.some.inj (hnode.symm.trans hnode')
      refine asserted_finish hheld ?_
      intro token' hr token'' created hok
      obtain rfl : token = token' := Except.ok.inj (hcomplete.decodes.symm.trans hr)
      obtain ⟨rfl, rfl⟩ : token = token'' ∧ false = created := by
        simpa using Except.ok.inj hok
      exact ⟨node, ⟨ino, hino, hnode⟩, hcomplete, fun hf => (by cases hf)⟩
  | drew token hdrew => exact ha token hdrew
  | notDrawn e => exact sound_error _
  | made token star mode hfree => exact draft_create hI hA
  | notMade token e => exact sound_error _
  | modeSet f =>
      exact hA.modify (fun _ => rfl) fun node (hnode : node.content = []) => ⟨rfl, hnode⟩
  | modeNotSet f e => exact hA.own
  | wrote f =>
      refine hA.modify (fun _ => rfl) ?_
      rintro node ⟨hmode, hcontent⟩
      exact ⟨hmode, by rw [hcontent]; rfl, hA.nonzero⟩
  | wroteShort f k e =>
      have hdraft := hA.modify
        (g := fun x => { x with content := x.content ++ (Token.line f.token).take k })
        (Q := fun _ => True) (fun _ => rfl) fun _ _ => trivial
      exact hdraft.own
  | synced f => exact hA
  | notSynced f e => exact hA.own
  | closed f => exact hA
  | closedFailed f err e =>
      cases err with
      | none => exact ⟨hA.own, sound_error _⟩
      | some _ => exact ⟨hA, sound_error _⟩
  | linked f ino hino hfree =>
      obtain ⟨node, hnode, hcreator⟩ := hA.own.file
      obtain rfl : f.ino = ino := Option.some.inj (hA.own.name.symm.trans hino)
      refine ⟨⟨?_, hA.own.temporary, node, hnode, hcreator⟩, ?_⟩
      · rw [FileSystem.link, get_insert, if_neg hA.own.temporary, hA.own.name]
      · intro token created hok
        obtain ⟨rfl, rfl⟩ : f.token = token ∧ true = created := by
          simpa using Except.ok.inj hok
        refine ⟨node, ⟨f.ino, ?_, hnode⟩, hA.written node hnode, fun _ => hcreator⟩
        rw [FileSystem.link, get_insert, if_pos rfl]
  | lost f => exact hA.own
  | notLinked f e => exact ⟨hA.own, sound_error _⟩
  | removed f r =>
      have hg := moves_guarantee (Moves.removed (a := a) f r) hA
      exact hA.2.stable hg
  | notRemoved f r => exact hA.2

/-! ## Runs -/

section Runs

variable {fs₀ : FileSystem} {s : Processes}

/-- **EVERY PROCESS KNOWS WHERE IT STANDS**, whatever the others do. -/
theorem asserted (hfs : get fs₀.dir (entry host path) = none)
    (h : Reach (tokenStep host path) nonzeroRandom ⟨fs₀, []⟩ s) :
    Annotated (Published host path) (Asserted host path) s := by
  refine Machine.owickiGries (M := tokenMachine host path) (J := fun _ => True)
    (fun _ _ => trivial) _ _ ?_ ?_ ?_ ?_ h
  · refine ⟨?_, fun i t ht => (by cases ht)⟩
    intro ino hino
    rw [hfs] at hino
    cases hino
  · intro s i t a fs' t' new _ _ hok he hI hA
    obtain ⟨hm, rfl⟩ := exec_moves he
    refine ⟨moves_published hm hA hI, moves_asserted hm ?_ hI hA, fun _ _ hu => (by cases hu)⟩
    rintro token rfl hzero
    exact hok (congrArg some hzero)
  · intro s i j t u a fs' t' new _ hij _ _ he _ hA hu
    exact hu.stable (moves_guarantee (exec_moves he).1 hA) hij
  · intro s e fs' new _ _ he hI
    obtain ⟨rfl, rfl⟩ : s.shared = fs' ∧ [Pc.start] = new := by
      simpa [tokenMachine, outside] using he
    refine ⟨hI, ?_, fun _ _ _ hu => hu⟩
    intro n u hu
    rw [List.mem_singleton.mp hu]
    trivial

/-- A step keeps what the path is bound to. -/
theorem bound_step {a : Act Choice Unit} {s' : Processes} {node : Inode}
    (hA : Annotated (Published host path) (Asserted host path) s)
    (hs : tokenStep host path s a = some s') (h : Bound host path s.shared node) :
    Bound host path s'.shared node := by
  cases a with
  | run i a =>
      obtain ⟨t, fs', t', new, ht, he, rfl⟩ := Machine.step_run hs
      exact h.kept (moves_guarantee (exec_moves he).1 (hA.2 i t ht))
  | env e =>
      obtain ⟨fs', new, he, rfl⟩ := Machine.step_env hs
      obtain ⟨rfl, rfl⟩ : s.shared = fs' ∧ [Pc.start] = new := by
        simpa [tokenMachine, outside] using he
      exact h

/-- **PUBLISHED FOR GOOD** -/
theorem bound_for_ever (hfs : get fs₀.dir (entry host path) = none) {s₁ : Processes}
    (h₁ : Reach (tokenStep host path) nonzeroRandom ⟨fs₀, []⟩ s₁)
    (h : Reach (tokenStep host path) nonzeroRandom s₁ s) {node : Inode}
    (hb : Bound host path s₁.shared node) : Bound host path s.shared node := by
  refine Reach.invariant (I := fun s => Bound host path s.shared node) hb ?_ h
  intro s a s' hr hI _ hs
  exact bound_step (asserted hfs (h₁.trans hr)) hs hI

/-- The process that published the file says so, unless it was stopped. -/
def Credited (t : Pc) : Prop := t = .stopped ∨ ∃ token, t.result = some (.ok (token, true))

theorem result_of_loading {l : Load} (h : t.loading = some l) : t.result = none := by
  cases t with
  | removing f r => cases h
  | returned r => cases h
  | _ => rfl

theorem credited_moves (h : Moves host path i a fs t fs' t') (hc : Credited t) : Credited t' := by
  rcases hc with rfl | ⟨token, hr⟩
  · cases h with
    | stopped => exact Or.inl rfl
    | notLoaded l e t hl => cases hl
  · cases h with
    | stopped => exact Or.inl rfl
    | removed f r => exact Or.inr ⟨token, hr⟩
    | notRemoved f r => exact Or.inr ⟨token, hr⟩
    | notLoaded l e t hl =>
        rw [result_of_loading hl] at hr
        cases hr
    | _ => cases hr

/-- A token file has a process that made it. -/
theorem credited (hfs : get fs₀.dir (entry host path) = none)
    (h : Reach (tokenStep host path) nonzeroRandom ⟨fs₀, []⟩ s) {node : Inode}
    (hb : Bound host path s.shared node) :
    ∃ t, s.threads[node.creator]? = some t ∧ Credited t := by
  refine Reach.invariant
    (I := fun s => ∀ node, Bound host path s.shared node →
      ∃ t, s.threads[node.creator]? = some t ∧ Credited t) ?_ ?_ h node hb
  · rintro node ⟨ino, hino, -⟩
    rw [show get fs₀.dir (entry host path) = none from hfs] at hino
    cases hino
  · intro s a s' hr hI _ hs node hb
    have hA := asserted hfs hr
    cases a with
    | run i a =>
        obtain ⟨t, fs', t', new, ht, he, rfl⟩ := Machine.step_run hs
        obtain ⟨hm, rfl⟩ := exec_moves he
        obtain ⟨ino, hino, hnode⟩ := hb
        have hlt := (List.getElem?_eq_some_iff.mp ht).1
        rw [List.append_nil]
        rcases moves_binds hm (hA.2 i t ht) hino with hold | ⟨f, rfl, rfl, rfl, hinodes⟩
        · -- the same file as before the step
          obtain ⟨node', _, hnode', _⟩ := hA.1 ino hold
          have hsame := (moves_guarantee hm (hA.2 i t ht)).frozen ino node' hold hnode'
          obtain rfl : node' = node := Option.some.inj (hsame.symm.trans hnode)
          obtain ⟨u, hu, hc⟩ := hI node' ⟨ino, hold, hnode'⟩
          by_cases hi : node'.creator = i
          · obtain rfl : t = u := Option.some.inj (ht.symm.trans (hi ▸ hu))
            exact ⟨t', by rw [hi, List.getElem?_set_self hlt], credited_moves hm hc⟩
          · exact ⟨u, by rw [List.getElem?_set_ne (Ne.symm hi), hu], hc⟩
        · -- the process has just published its own
          obtain ⟨node', hnode', hcreator⟩ := (hA.2 i _ ht).own.file
          obtain rfl : node' = node :=
            Option.some.inj (hnode'.symm.trans ((congrArg (·[f.ino]?) hinodes).symm.trans hnode))
          exact ⟨_, by rw [hcreator, List.getElem?_set_self hlt], Or.inr ⟨f.token, rfl⟩⟩
    | env e =>
        obtain ⟨fs', new, he, rfl⟩ := Machine.step_env hs
        obtain ⟨rfl, rfl⟩ : s.shared = fs' ∧ [Pc.start] = new := by
          simpa [tokenMachine, outside] using he
        obtain ⟨t, ht, hc⟩ := hI node hb
        have hlt := (List.getElem?_eq_some_iff.mp ht).1
        exact ⟨t, (List.getElem?_append_left hlt).trans ht, hc⟩

/-- A process that has not looked at the path, or is done. -/
def Idle (t : Pc) : Prop := t = .start ∨ t = .stopped ∨ ∃ r, t = .returned r

theorem idle_moves (hpath : trimSpace path = []) (h : Moves host path i a fs t fs' t')
    (hidle : Idle t) : fs' = fs ∧ Idle t' := by
  rcases hidle with rfl | rfl | ⟨r, rfl⟩
  · cases h with
    | stopped => exact ⟨rfl, Or.inr (Or.inl rfl)⟩
    | refused => exact ⟨rfl, Or.inr (Or.inr ⟨_, rfl⟩)⟩
    | entered hne => exact absurd hpath hne
    | notLoaded l e t hl => cases hl
  · cases h with
    | stopped => exact ⟨rfl, Or.inr (Or.inl rfl)⟩
    | notLoaded l e t hl => cases hl
  · cases h with
    | stopped => exact ⟨rfl, Or.inr (Or.inl rfl)⟩
    | notLoaded l e t hl => cases hl

/-- Without a path nothing happens. -/
theorem no_path (hpath : trimSpace path = [])
    (h : Reach (tokenStep host path) nonzeroRandom ⟨fs₀, []⟩ s) : s.shared = fs₀ := by
  suffices hA : Annotated (· = fs₀) (fun _ _ t => Idle t) s from hA.1
  refine Machine.owickiGries (M := tokenMachine host path) (J := fun _ => True)
    (fun _ _ => trivial) (· = fs₀) (fun _ _ t => Idle t) ⟨rfl, fun i t ht => (by cases ht)⟩
    ?_ ?_ ?_ h
  · intro s i t a fs' t' new _ _ _ he hI hL
    obtain ⟨hm, rfl⟩ := exec_moves he
    obtain ⟨rfl, hidle⟩ := idle_moves hpath hm hL
    exact ⟨hI, hidle, fun _ _ hu => (by cases hu)⟩
  · intro s i j t u a fs' t' new _ _ _ _ _ _ _ hu
    exact hu
  · intro s e fs' new _ _ he hI
    obtain ⟨rfl, rfl⟩ : s.shared = fs' ∧ [Pc.start] = new := by
      simpa [tokenMachine, outside] using he
    refine ⟨hI, ?_, fun _ _ _ hu => hu⟩
    intro n u hu
    exact Or.inl (List.mem_singleton.mp hu)

/-- What is under the path loads. -/
theorem loadTokenFile_bound {token : Token} {node : Inode} (hpath : trimSpace path ≠ [])
    (hb : Bound host path fs node) (hc : Complete host token node) :
    loadTokenFile host fs path = .ok token := by
  obtain ⟨ino, hino, hnode⟩ := hb
  have hbind : (get fs.dir (host.base (trimSpace path))).bind (fs.inodes[·]?) = some node := by
    rw [show get fs.dir (host.base (trimSpace path)) = some ino from hino]
    exact hnode
  simp only [loadTokenFile, if_neg hpath, FileSystem.lstat, FileSystem.readFile, hbind, hc.mode,
    checkMode_private, hc.decodes]

/-- A result is sound, wherever its process is. -/
theorem sound_result (hfs : get fs₀.dir (entry host path) = none)
    (h : Reach (tokenStep host path) nonzeroRandom ⟨fs₀, []⟩ s) {r : Result}
    (ht : s.threads[i]? = some t) (hr : t.result = some r) : Sound host path i s.shared r := by
  have hAt := (asserted hfs h).2 i t ht
  cases t with
  | removing f r' => exact Option.some.inj hr ▸ hAt.2
  | returned r' => exact Option.some.inj hr ▸ hAt
  | _ => cases hr

/-- The path at every moment before it is bound to a file, and since. -/
theorem path_before (hfs : get fs₀.dir (entry host path) = none) {s₁ : Processes}
    (h₁ : Reach (tokenStep host path) nonzeroRandom ⟨fs₀, []⟩ s₁)
    (h : Reach (tokenStep host path) nonzeroRandom s₁ s) {token : Token} {node : Inode}
    (hbound : Bound host path s.shared node) (hcomplete : Complete host token node) :
    get s₁.shared.dir (entry host path) = none ∨
      (∃ node, Bound host path s₁.shared node ∧ node.content = Token.line token) ∧
        loadTokenFile host s₁.shared path = .ok token := by
  cases hentry : get s₁.shared.dir (entry host path) with
  | none => exact Or.inl rfl
  | some ino =>
      refine Or.inr ?_
      obtain ⟨node₁, token₁, hnode₁, -⟩ := (asserted hfs h₁).1 ino hentry
      have hbound₁ : Bound host path s₁.shared node₁ := ⟨ino, hentry, hnode₁⟩
      obtain rfl := (bound_for_ever hfs h₁ h hbound₁).unique hbound
      have hpath : trimSpace path ≠ [] := by
        intro hnil
        rw [no_path hnil h₁, hfs] at hentry
        cases hentry
      exact ⟨⟨node₁, hbound₁, hcomplete.content⟩, loadTokenFile_bound hpath hbound₁ hcomplete⟩

end Runs

/-- **THE PROCESSES AGREE ON ONE TOKEN**: for any number of processes on a path that
    does not exist, under every interleaving of their calls and with any of them
    stopped anywhere, there is one token such that

    * every call that returns without an error returns it;
    * at most one call reports that it created the file;
    * one does, if a call returned without an error and no process was stopped;
    * at every moment up to now the path is unbound, or bound to the file that has
      this token's line as its content, and which `LoadTokenFile` decodes to it. -/
theorem token_file_agreement (host : Host) (path : Bytes) (fs₀ : FileSystem) (s : Processes)
    (hfs : get fs₀.dir (entry host path) = none)
    (h : Reach (tokenStep host path) nonzeroRandom ⟨fs₀, []⟩ s) :
    ∃ token,
      (∀ (i : Nat) (t : Pc) token' created, s.threads[i]? = some t →
        t.result = some (.ok (token', created)) → token' = token) ∧
      (∀ (i j : Nat) (t u : Pc) token₁ token₂, s.threads[i]? = some t → s.threads[j]? = some u →
        t.result = some (.ok (token₁, true)) → u.result = some (.ok (token₂, true)) → i = j) ∧
      ((∀ t ∈ s.threads, t ≠ .stopped) →
        (∃ t ∈ s.threads, ∃ token' created, t.result = some (.ok (token', created))) →
        ∃ t ∈ s.threads, t.result = some (.ok (token, true))) ∧
      ∀ s₁, Reach (tokenStep host path) nonzeroRandom ⟨fs₀, []⟩ s₁ →
        Reach (tokenStep host path) nonzeroRandom s₁ s →
        get s₁.shared.dir (entry host path) = none ∨
          (∃ node, Bound host path s₁.shared node ∧ node.content = Token.line token) ∧
            loadTokenFile host s₁.shared path = .ok token := by
  cases hentry : get s.shared.dir (entry host path) with
  | none =>
      -- nothing is published: no call has returned a token
      have hnone : ∀ node, ¬ Bound host path s.shared node := by
        rintro node ⟨ino, hino, -⟩
        rw [hentry] at hino
        cases hino
      refine ⟨zeroToken, ?_, ?_, ?_, ?_⟩
      · intro i t token' created ht hr
        obtain ⟨node, hb, -⟩ := sound_result hfs h ht hr _ _ rfl
        exact absurd hb (hnone node)
      · intro i j t u token₁ token₂ ht _ hr _
        obtain ⟨node, hb, -⟩ := sound_result hfs h ht hr _ _ rfl
        exact absurd hb (hnone node)
      · rintro - ⟨t, ht, token', created, hr⟩
        obtain ⟨i, hi⟩ := List.getElem?_of_mem ht
        obtain ⟨node, hb, -⟩ := sound_result hfs h hi hr _ _ rfl
        exact absurd hb (hnone node)
      · intro s₁ h₁ hrest
        refine Or.inl (Option.eq_none_iff_forall_ne_some.mpr ?_)
        intro ino hino
        obtain ⟨node, token, hnode, -⟩ := (asserted hfs h₁).1 ino hino
        exact hnone node (bound_for_ever hfs h₁ hrest ⟨ino, hino, hnode⟩)
  | some ino =>
      obtain ⟨node, token, hnode, hcomplete⟩ := (asserted hfs h).1 ino hentry
      have hbound : Bound host path s.shared node := ⟨ino, hentry, hnode⟩
      have hone : ∀ (i : Nat) (t : Pc) token' created, s.threads[i]? = some t →
          t.result = some (.ok (token', created)) →
          token' = token ∧ (created = true → node.creator = i) := by
        intro i t token' created ht hr
        obtain ⟨node', hb, hc, hi⟩ := sound_result hfs h ht hr _ _ rfl
        obtain rfl := hb.unique hbound
        exact ⟨hc.unique hcomplete, hi⟩
      refine ⟨token, fun i t token' created ht hr => (hone i t token' created ht hr).1, ?_, ?_, ?_⟩
      · intro i j t u token₁ token₂ ht hu hr hr'
        exact ((hone i t _ _ ht hr).2 rfl).symm.trans ((hone j u _ _ hu hr').2 rfl)
      · rintro hrunning -
        obtain ⟨t, ht, hstopped | ⟨token', hr⟩⟩ := credited hfs h hbound
        · exact absurd hstopped (hrunning t (List.mem_of_getElem? ht))
        · obtain rfl := (hone _ t _ _ ht hr).1
          exact ⟨t, List.mem_of_getElem? ht, hr⟩
      · intro s₁ h₁ hrest
        exact path_before hfs h₁ hrest hbound hcomplete

/-- A Unix system with the usual umask. -/
def unixHost : Host where
  windows := false
  umask := 0o022
  base := id

/-- Process `i` up to its link: the path does not exist, its random bytes are `token`. -/
def drafting (i : Nat) (token : Token) (star : Bytes) : List (Act Choice Unit) :=
  [.env (), .run i .go, .run i .go, .run i (.bytes token), .run i (.name star), .run i .go,
    .run i .go, .run i .go, .run i .go]

/-- Two processes write their drafts, the first links, the second loses and loads. -/
theorem loser_loads_winner :
    ∃ s : Processes, Reach (tokenStep unixHost (ascii "token")) nonzeroRandom ⟨⟨[], []⟩, []⟩ s ∧
      ∃ token, s.threads.map Pc.result =
          [some (.ok (token, true)), some (.ok (token, false))] ∧
        loadTokenFile unixHost s.shared (ascii "token") = .ok token := by
  obtain ⟨s, hr, hp⟩ := Reach.of_follow (tokenStep unixHost (ascii "token")) nonzeroRandom
    ⟨⟨[], []⟩, []⟩
    (List.flatten [drafting 0 sevens (ascii "1"), drafting 1 eights (ascii "2"),
      [.run 0 .go, .run 1 .go], List.replicate 3 (.run 1 .go),
      [.run 0 .go, .run 1 .go]])
    (fun s => decide (s.threads.map Pc.result =
        [some (.ok (sevens, true)), some (.ok (sevens, false))]) &&
      (get s.shared.dir (entry unixHost (ascii "token"))).isSome)
    (by decide)
  obtain ⟨hresults, hbound⟩ := Bool.and_eq_true_iff.mp hp
  replace hresults := of_decide_eq_true hresults
  obtain ⟨token, hall, -, -, hpath⟩ := token_file_agreement unixHost (ascii "token") ⟨[], []⟩ s rfl hr
  have hfirst : (s.threads.map Pc.result)[0]? = some (some (.ok (sevens, true))) := by
    rw [hresults]
    rfl
  rw [List.getElem?_map, Option.map_eq_some_iff] at hfirst
  obtain ⟨t, ht, hr₀⟩ := hfirst
  obtain rfl := hall 0 t sevens true ht hr₀
  refine ⟨s, hr, sevens, hresults, ?_⟩
  rcases hpath s hr Reach.start with habsent | ⟨-, hload⟩
  · rw [habsent] at hbound
    cases hbound
  · exact hload

end VkTurnTokenFile
