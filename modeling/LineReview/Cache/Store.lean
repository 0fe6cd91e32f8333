import LineReview.Cache.Packed
import LineReview.Digest
import LineReview.FileSystem.Access
import LineReview.Time.Instant

/-!
# The cache of review results

A cache is a folder with one file per result. The key of a result is the digest
of the rules' fingerprint and the content's digest, so a result is found again
exactly when neither has changed. Entries of another schema count as missing.

An entry is written to a temporary file first and then renamed. The system may
refuse any step on the way (`Circumstances`); the temporary file is then removed.
-/

namespace LineReview

/-- Number of the present form of entries and keys. -/
def cacheSchema : UInt16 := 1

inductive CacheError where
  | access (e : AccessError)
  /-- The file holds no entry. -/
  | malformed
deriving DecidableEq, Repr

def CacheError.message : CacheError → Text
  | .access e => e.message
  | .malformed => bytes "decode cache entry: malformed"

structure Cache where
  folder : Text
deriving DecidableEq, Repr

namespace Cache

/-- Opens the cache in a folder, which is made when it is missing. -/
def openAt (fs : FileSystem) (folder : Text) : Except AccessError (Cache × FileSystem) :=
  (fs.makeFolders folder).map fun fs => (⟨folder⟩, fs)

def openMessage (e : AccessError) : Text := bytes "create cache dir: " ++ e.message

def key (fingerprint content : Text) : Text :=
  Digest.sha256
    (bytes "codereview/" ++ Text.decimal cacheSchema.toNat ++ [0] ++ fingerprint ++ [0] ++ content)

/-- The folder of an entry and its file. -/
def entryFolder (c : Cache) (key : Text) : Text :=
  Path.join c.folder (bytes "files/" ++ (Text.hex key).take 2)

def entryPath (c : Cache) (key : Text) : Text :=
  Path.join (c.entryFolder key) (Text.hex key ++ bytes ".mp")

inductive PutStep where
  | folders
  | create
  | write
  | close
  | rename
deriving DecidableEq, Repr

/-- What the files do not determine when an entry is stored. -/
structure Circumstances where
  /-- The numbers that are tried for the name of the temporary file. -/
  number : Nat → Nat := id
  /-- Steps that fail although nothing stands in their way, and why. -/
  refused : PutStep → Option FileError := fun _ => none
  /-- Bytes that were written before writing failed. -/
  written : Nat := 0

def temporaryPath (c : Cache) (key : Text) (number : Nat) : Text :=
  c.entryFolder key ++ bytes "/tmp-" ++ Text.decimal number

def maxTries : Nat := 10000

/-- Makes a temporary file under the first name that is free, beginning with the `i`-th number. The
first argument bounds the names that are tried. -/
def createTemporary (c : Cache) (fs : FileSystem) (key : Text) (number : Nat → Nat) :
    Nat → Nat → Except AccessError (Text × List Text × FileSystem)
  | 0, _ => .error ⟨"createtemp", c.entryFolder key ++ bytes "/tmp-*", .alreadyThere⟩
  | tries + 1, i =>
    let path := c.temporaryPath key (number i)
    match fs.create path with
    | .ok (pos, fs) => .ok (path, pos, fs)
    | .error e =>
      if e.reason = .alreadyThere then createTemporary c fs key number tries (i + 1) else .error e

/-- Writes an entry to the temporary file at a position and gives the file the name of the entry. -/
def fillTemporary (how : Circumstances) (c : Cache) (fs : FileSystem) (key content path : Text)
    (pos : List Text) : FileSystem × Option AccessError :=
  let filled (t : Text) : FileSystem := { fs with root := Node.set (.file t) pos fs.root }
  match how.refused .write, how.refused .close, how.refused .rename with
  | some r, _, _ => (filled (content.take how.written), some ⟨"write", path, r⟩)
  | none, some r, _ => (filled content, some ⟨"close", path, r⟩)
  | none, none, some r => (filled content, some ⟨"rename", path ++ 32 :: c.entryPath key, r⟩)
  | none, none, none =>
    match (filled content).rename path (c.entryPath key) with
    | .ok fs => (fs, none)
    | .error r => (filled content, some ⟨"rename", path ++ 32 :: c.entryPath key, r⟩)

/-- Stores an entry under a key, in place of an earlier one. It appears under its name only when it
is complete, so a failure leaves what was stored before. -/
def putIn (how : Circumstances) (c : Cache) (fs : FileSystem) (key : Text) (e : CacheEntry) :
    FileSystem × Option AccessError :=
  match how.refused .folders with
  | some r => (fs, some ⟨"mkdir", c.entryFolder key, r⟩)
  | none =>
    match fs.attemptFolders (c.entryFolder key) with
    | (fs, some r) => (fs, some r)
    | (fs, none) =>
      match how.refused .create with
      | some r => (fs, some ⟨"open", c.temporaryPath key (how.number 0), r⟩)
      | none =>
        match c.createTemporary fs key how.number maxTries 0 with
        | .error r => (fs, some r)
        | .ok (path, pos, fs) =>
          let content := Packed.entry { e with schema := cacheSchema }
          match fillTemporary how c fs key content path pos with
          | (fs, none) => (fs, none)
          | (fs, some r) => (fs.removeAll path, some r)

/-- Stores an entry when nothing is refused. -/
def put (c : Cache) (fs : FileSystem) (key : Text) (e : CacheEntry) :
    Except AccessError FileSystem :=
  match putIn {} c fs key e with
  | (fs, none) => .ok fs
  | (_, some r) => .error r

/-- The entry under a key, if there is one of the present schema. -/
def get (c : Cache) (fs : FileSystem) (key : Text) : Except CacheError (Option CacheEntry) :=
  match fs.read (c.entryPath key) with
  | .error e =>
    if e.reason = .notFound then .ok none
    else if e.reason = .isFolder then .error .malformed
    else .error (.access e)
  | .ok t =>
    match Packed.readEntry t with
    | none => .error .malformed
    | some e => if e.schema = cacheSchema then .ok (some e) else .ok none

/-- Looks up a key for a caller, whose entry changes only when there is one. -/
def getInto (c : Cache) (fs : FileSystem) (key : Text) (out : CacheEntry) :
    Except CacheError Bool × CacheEntry :=
  match c.get fs key with
  | .ok (some e) => (.ok true, e)
  | .ok none => (.ok false, out)
  | .error r => (.error r, out)

def discarded (c : Cache) (now : Instant) : Text := c.folder ++ bytes ".old-" ++ now.digits

/-- Takes all entries away: the folder is moved aside and removed, and a new one is made. -/
def dropAll (c : Cache) (fs : FileSystem) (now : Instant) : FileSystem × Option AccessError :=
  match fs.rename c.folder (c.discarded now) with
  | .ok fs => (fs.removeAll (c.discarded now)).attemptFolders c.folder
  | .error r =>
    if r = .notFound then (fs, none)
    else (fs, some ⟨"rename", c.folder ++ 32 :: c.discarded now, r⟩)

inductive Call where
  | put (key : Text) (entry : CacheEntry) (how : Circumstances)
  | get (key : Text) (out : CacheEntry)
  | dropAll (now : Instant)

inductive Answer where
  | stored (error : Option AccessError)
  | got (found : Except CacheError Bool) (out : CacheEntry)
  | dropped (error : Option AccessError)

def call (c : Cache) (fs : FileSystem) : Call → FileSystem × Answer
  | .put key e how =>
    let (fs, r) := putIn how c fs key e
    (fs, .stored r)
  | .get key out =>
    let (found, out) := c.getInto fs key out
    (fs, .got found out)
  | .dropAll now =>
    let (fs, r) := c.dropAll fs now
    (fs, .dropped r)

end Cache

end LineReview
