import Camlistore.DiskStorage

/-! # `(*diskStorage).ReceiveBlob`, one statement at a time

An in-flight call is its arguments and a program counter that holds the live locals.  A step
runs the statement at the counter: its filesystem call, with the outcome the environment
picks, and the local computation up to the next call.  `io.Copy` is its loop, one `Write` of
what one `Read` returned per step; the hash is the list of bytes fed to it.  Every `return`
after the temp file exists goes through `cleanup`, the deferred `os.Remove(tempFile.Name())`,
unless `success` was set: the counters from `notify` on are the ones with `success = true`.
The `-showimages` viewer hook and the log lines are left out. -/

set_option autoImplicit false

namespace Camlistore

inductive Error
  | PathError (Op : String) (Path : Path) (Err : Errno)
  | LinkError (Op : String) (Old New : Path) (Err : Errno)
  | ErrorString (text : String)
  deriving DecidableEq, Repr

def CorruptBlobError : Error := .ErrorString "corrupt blob; digest doesn't match"

/-- The `io.Reader` a blob is streamed from: what its successful `Read`s return, in order,
then `io.EOF` (`err = none`) or the error it fails with. -/
structure Source where
  reads : List (List UInt8)
  err : Option Error

def Source.bytes (source : Source) : List UInt8 := source.reads.flatten

structure FileInfo where
  IsRegular : Bool
  Size : Nat

def Store.Lstat (fs : Store) (name : Path) : Except Errno FileInfo :=
  (fs.lstat name).map fun size => ⟨true, size⟩

/-- Where a call stands, with the locals live there. -/
inductive Pc
  | start
  | tempFile
  /-- Inside `io.Copy(io.MultiWriter(hash, tempFile), source)`: the reads still to come, the
  bytes hashed and the count written so far. -/
  | copy (temp : Path) (file : Inode) (reads : List (List UInt8)) (hashed : List UInt8)
      (written : Nat)
  | sync (temp : Path) (hashed : List UInt8) (written : Nat)
  | close (temp : Path) (hashed : List UInt8) (written : Nat)
  | rename (temp : Path) (written : Nat)
  | lstat (temp : Path) (written : Nat)
  | mirror (temp : Path) (size : Nat) (partitions : List Partition)
  | link (temp : Path) (size : Nat) (partition : Partition) (partitions : List Partition)
  | notify (blobGot : SizedBlobRef) (partitions : List Partition)
  /-- The deferred function, on a `return` with `success = false`. -/
  | cleanup (temp : Path) (err : Error)
  | done (result : Except Error SizedBlobRef)

structure Call where
  blobRef : BlobRef
  source : Source
  mirrorPartitions : List Partition
  pc : Pc

def ReceiveBlob (blobRef : BlobRef) (source : Source) (mirrorPartitions : List Partition) :
    Call :=
  ⟨blobRef, source, mirrorPartitions, .start⟩

/-- What the environment makes of a step's filesystem call. -/
inductive Outcome
  /-- It does what the store allows; a step with no filesystem call takes this one. -/
  | ok
  /-- `ioutil.TempFile` opens its name with this suffix. -/
  | named (suffix : String)
  /-- It fails with `errno`.  A failing `Write` gets its first `through` bytes through, a
  failing `os.MkdirAll` names the directory of its path's first `through` components (the path
  or the ancestor it could not make), and a failing `ioutil.TempFile` last tried the suffix
  `nextSuffix through`. -/
  | failed (errno : Errno) (through : Nat)
  deriving DecidableEq

def Outcome.isFailure : Outcome → Bool
  | .failed _ _ => true
  | _ => false

/-- `nextSuffix` of `ioutil.TempFile`, for the generator's value `r`: nine decimal digits. -/
def nextSuffix (r : Nat) : String := (toString (1000000000 + r % 1000000000)).drop 1

inductive Op
  | MkdirAll (path : Path)
  | TempFile (dir : Path) (pre : String)
  | Write (name : Path) (bytes : List UInt8)
  | Sync (name : Path)
  | Close (name : Path)
  | Rename (old new : Path)
  | Lstat (name : Path)
  | Link (old new : Path)
  | Remove (name : Path)
  | NotifyBlobReceived (partition : Partition) (blobRef : BlobRef)
  deriving DecidableEq, Repr

abbrev StepResult := Pc × Store × List (Op × Option Errno)

namespace Call

variable (ds : DiskStorage)

/-! Each statement of `ReceiveBlob`, given the outcome of its filesystem call: the next counter,
the store, and the calls made.  `none` when the outcome does not fit the statement: a `named`
outcome on anything but `ioutil.TempFile`, a suffix whose name exists (`TempFile` tries
another), or a failure of a step with no filesystem call. -/

def mkdirAll (c : Call) (fs : Store) : Outcome → Option StepResult
  | .ok => some (.tempFile, fs, [(.MkdirAll (ds.blobDirectoryName c.blobRef), none)])
  | .named _ => none
  | .failed e through =>
      some (.done (.error (.PathError "mkdir" ((ds.blobDirectoryName c.blobRef).take through) e)),
        fs, [(.MkdirAll (ds.blobDirectoryName c.blobRef), some e)])

def tempFile (c : Call) (fs : Store) : Outcome → Option StepResult
  | .ok => none
  | .named suffix =>
      let name := ds.tempFileName c.blobRef suffix
      match fs.names.lookup name with
      | some _ => none
      | none => some (.copy name fs.next c.source.reads [] 0, fs.create name,
          [(.TempFile (ds.blobDirectoryName c.blobRef) (ds.BlobFileBaseName c.blobRef ++ ".tmp"),
            none)])
  | .failed e through =>
      some (.done (.error (.PathError "open" (ds.tempFileName c.blobRef (nextSuffix through)) e)),
        fs, [(.TempFile (ds.blobDirectoryName c.blobRef) (ds.BlobFileBaseName c.blobRef ++ ".tmp"),
          some e)])

/-- One turn of `io.Copy`'s loop: write what the next `Read` returned to the hash and the file,
or stop at the end of the source. -/
def copy (c : Call) (fs : Store) (temp : Path) (file : Inode) (hashed : List UInt8)
    (written : Nat) : List (List UInt8) → Outcome → Option StepResult
  | buf :: reads, .ok =>
      some (.copy temp file reads (hashed ++ buf) (written + buf.length), fs.write file buf,
        [(.Write temp buf, none)])
  | _ :: _, .named _ => none
  | buf :: _, .failed e through =>
      some (.cleanup temp (.PathError "write" temp e), fs.write file (buf.take through),
        [(.Write temp (buf.take through), some e)])
  | [], .ok =>
      match c.source.err with
      | none => some (.sync temp hashed written, fs, [])
      | some err => some (.cleanup temp err, fs, [])
  | [], .named _ => none
  | [], .failed _ _ => none

def sync (temp : Path) (hashed : List UInt8) (written : Nat) (fs : Store) :
    Outcome → Option StepResult
  | .ok => some (.close temp hashed written, fs, [(.Sync temp, none)])
  | .named _ => none
  | .failed e _ => some (.cleanup temp (.PathError "sync" temp e), fs, [(.Sync temp, some e)])

def close (c : Call) (temp : Path) (hashed : List UInt8) (written : Nat) (fs : Store) :
    Outcome → Option StepResult
  | .ok =>
      if ds.HashMatches c.blobRef hashed then
        some (.rename temp written, fs, [(.Close temp, none)])
      else some (.cleanup temp CorruptBlobError, fs, [(.Close temp, none)])
  | .named _ => none
  | .failed e _ => some (.cleanup temp (.PathError "close" temp e), fs, [(.Close temp, some e)])

def rename (c : Call) (temp : Path) (written : Nat) (fs : Store) : Outcome → Option StepResult
  | .ok =>
      match fs.rename temp (ds.blobFileName c.blobRef) with
      | .ok fs' => some (.lstat temp written, fs', [(.Rename temp (ds.blobFileName c.blobRef), none)])
      | .error e => some (.cleanup temp (.LinkError "rename" temp (ds.blobFileName c.blobRef) e), fs,
          [(.Rename temp (ds.blobFileName c.blobRef), some e)])
  | .named _ => none
  | .failed e _ =>
      some (.cleanup temp (.LinkError "rename" temp (ds.blobFileName c.blobRef) e), fs,
        [(.Rename temp (ds.blobFileName c.blobRef), some e)])

def lstat (c : Call) (temp : Path) (written : Nat) (fs : Store) : Outcome → Option StepResult
  | .ok =>
      match fs.Lstat (ds.blobFileName c.blobRef) with
      | .ok stat =>
          if !stat.IsRegular || stat.Size != written then
            some (.cleanup temp (.ErrorString "Written size didn't match."), fs,
              [(.Lstat (ds.blobFileName c.blobRef), none)])
          else some (.mirror temp stat.Size c.mirrorPartitions, fs,
            [(.Lstat (ds.blobFileName c.blobRef), none)])
      | .error e => some (.cleanup temp (.PathError "lstat" (ds.blobFileName c.blobRef) e), fs,
          [(.Lstat (ds.blobFileName c.blobRef), some e)])
  | .named _ => none
  | .failed e _ =>
      some (.cleanup temp (.PathError "lstat" (ds.blobFileName c.blobRef) e), fs,
        [(.Lstat (ds.blobFileName c.blobRef), some e)])

/-- The head of the mirror loop: `os.MkdirAll(partitionDir, 0700)` for the next partition; after
the last, `blobGot` and `success = true`. -/
def mirror (c : Call) (temp : Path) (size : Nat) (fs : Store) :
    List Partition → Outcome → Option StepResult
  | partition :: partitions, .ok =>
      some (.link temp size partition partitions, fs,
        [(.MkdirAll (ds.blobPartitionDirectoryName partition c.blobRef), none)])
  | _ :: _, .named _ => none
  | partition :: _, .failed e through =>
      some (.cleanup temp
          (.PathError "mkdir" ((ds.blobPartitionDirectoryName partition c.blobRef).take through) e),
        fs, [(.MkdirAll (ds.blobPartitionDirectoryName partition c.blobRef), some e)])
  | [], .ok => some (.notify ⟨c.blobRef, size⟩ (ds.DefaultPartition :: c.mirrorPartitions), fs, [])
  | [], .named _ => none
  | [], .failed _ _ => none

def link (c : Call) (temp : Path) (size : Nat) (partition : Partition)
    (partitions : List Partition) (fs : Store) : Outcome → Option StepResult
  | .ok =>
      match fs.link (ds.blobFileName c.blobRef) (ds.partitionBlobFileName partition c.blobRef) with
      | .ok fs' => some (.mirror temp size partitions, fs',
          [(.Link (ds.blobFileName c.blobRef) (ds.partitionBlobFileName partition c.blobRef), none)])
      | .error e => some (.cleanup temp (.LinkError "link" (ds.blobFileName c.blobRef)
            (ds.partitionBlobFileName partition c.blobRef) e), fs,
          [(.Link (ds.blobFileName c.blobRef) (ds.partitionBlobFileName partition c.blobRef), some e)])
  | .named _ => none
  | .failed e _ =>
      some (.cleanup temp (.LinkError "link" (ds.blobFileName c.blobRef)
          (ds.partitionBlobFileName partition c.blobRef) e), fs,
        [(.Link (ds.blobFileName c.blobRef) (ds.partitionBlobFileName partition c.blobRef), some e)])

/-- `ds.GetBlobHub(partition).NotifyBlobReceived(blobRef)` for the next hub; after the last, the
`return`, with `success` set. -/
def notify (c : Call) (blobGot : SizedBlobRef) (fs : Store) :
    List Partition → Outcome → Option StepResult
  | partition :: partitions, .ok =>
      some (.notify blobGot partitions, fs, [(.NotifyBlobReceived partition c.blobRef, none)])
  | [], .ok => some (.done (.ok blobGot), fs, [])
  | _, .named _ => none
  | _, .failed _ _ => none

/-- The deferred `os.Remove(tempFile.Name())`, whose error is dropped. -/
def cleanup (temp : Path) (err : Error) (fs : Store) : Outcome → Option StepResult
  | .ok =>
      match fs.remove temp with
      | .ok fs' => some (.done (.error err), fs', [(.Remove temp, none)])
      | .error e => some (.done (.error err), fs, [(.Remove temp, some e)])
  | .named _ => none
  | .failed e _ => some (.done (.error err), fs, [(.Remove temp, some e)])

def step (c : Call) (fs : Store) (o : Outcome) : Option StepResult :=
  match c.pc with
  | .start => c.mkdirAll ds fs o
  | .tempFile => c.tempFile ds fs o
  | .copy temp file reads hashed written => c.copy fs temp file hashed written reads o
  | .sync temp hashed written => sync temp hashed written fs o
  | .close temp hashed written => c.close ds temp hashed written fs o
  | .rename temp written => c.rename ds temp written fs o
  | .lstat temp written => c.lstat ds temp written fs o
  | .mirror temp size partitions => c.mirror ds temp size fs partitions o
  | .link temp size partition partitions => c.link ds temp size partition partitions fs o
  | .notify blobGot partitions => c.notify blobGot fs partitions o
  | .cleanup temp err => cleanup temp err fs o
  | .done _ => none

end Call

end Camlistore
