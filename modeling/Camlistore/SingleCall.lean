import Camlistore.System

/-! # One call on its own

A single `ReceiveBlob(blobRef, source, mirrorPartitions)` runs against a store `fs0` under any
failure pattern.  `Alone` says, at every counter, what the store and the record are: the store is
`fs0` itself, or `fs0` with the temp file, or `fs0` with the blob committed under its canonical
name and linked into a prefix of the partitions.  A `return` with `success = false` reaches the
deferred cleanup from before or after the `Rename`, and only the record tells which: a
successful `Rename` is on it exactly in the second case. -/

set_option autoImplicit false

namespace Camlistore

section Alone
variable (ds : DiskStorage) (fs0 : Store) (blobRef : BlobRef) (source : Source)
  (mirrorPartitions : List Partition)

def Holding (temp : Path) (bytes : List UInt8) (fs : Store) : Prop :=
  fs0.names.lookup temp = none ∧
    (∀ q, fs.names.lookup q = if q = temp then some fs0.next else fs0.names.lookup q) ∧
    fs.data = Function.update fs0.data fs0.next bytes

/-- `fs` is `fs0` with the blob's file under its canonical name and linked into `linked`. -/
def Committed (temp : Path) (linked : List Partition) (fs : Store) : Prop :=
  fs0.names.lookup temp = none ∧
    (∀ q, fs.names.lookup q =
      if q = ds.blobFileName blobRef ∨ q ∈ linked.map (ds.partitionBlobFileName · blobRef) then
        some fs0.next
      else if q = temp then none else fs0.names.lookup q) ∧
    fs.data = Function.update fs0.data fs0.next source.bytes

def Untouched (fs : Store) : Prop :=
  (∀ q, fs.names.lookup q = fs0.names.lookup q) ∧ ∀ i, i < fs0.next → fs.data i = fs0.data i

def IsTemp (temp : Path) : Prop := ∃ suffix, temp = ds.tempFileName blobRef suffix

def Fresh (record : List Entry) : Prop :=
  record.filterMap Entry.renamed = [] ∧ record.filterMap Entry.linked = [] ∧
    record.filterMap Entry.notice = []

theorem Fresh.append {record more : List Entry} (fresh : Fresh record)
    (renamed : more.filterMap Entry.renamed = []) (linked : more.filterMap Entry.linked = [])
    (notice : more.filterMap Entry.notice = []) : Fresh (record ++ more) := by
  obtain ⟨renamed', linked', notice'⟩ := fresh
  simp only [Fresh, List.filterMap_append, renamed, linked, notice, renamed', linked', notice',
    List.append_nil, and_self]

theorem closed_of_append {record more : List Entry} (closed : (record ++ more).any Entry.closed)
    (quiet : more.any Entry.closed = false) : record.any Entry.closed := by
  rwa [List.any_append, quiet, Bool.or_false] at closed

def StatError (err : Error) : Prop :=
  (∃ e, err = .PathError "lstat" (ds.blobFileName blobRef) e) ∨
    err = .ErrorString "Written size didn't match."

/-- The error of the mirror loop at `partition`: `os.MkdirAll` of the partition's directory,
failing there or at an ancestor, or `os.Link`. -/
def MirrorError (partition : Partition) (err : Error) : Prop :=
  (∃ dir e, dir <+: ds.blobPartitionDirectoryName partition blobRef ∧
    err = .PathError "mkdir" dir e) ∨
    ∃ e, err = .LinkError "link" (ds.blobFileName blobRef)
      (ds.partitionBlobFileName partition blobRef) e

/-- After the commit: linked into `linked`, whose mirror names `fs0` lacked, the record showing
the commit and those links. -/
structure AfterCommit (temp : Path) (linked : List Partition) (fs : Store) (record : List Entry) :
    Prop where
  isTemp : IsTemp ds blobRef temp
  committed : Committed ds fs0 blobRef source temp linked fs
  renamed : record.filterMap Entry.renamed = [ds.blobFileName blobRef]
  links : record.filterMap Entry.linked = linked.map (ds.partitionBlobFileName · blobRef)
  noNotice : record.filterMap Entry.notice = []
  eof : source.err = none
  hashOk : ds.HashMatches blobRef source.bytes
  absent : ∀ p ∈ linked, fs0.names.lookup (ds.partitionBlobFileName p blobRef) = none
  nodup : (linked.map (ds.partitionBlobFileName · blobRef)).Nodup

structure Mirrored (fs : Store) (record : List Entry) : Prop where
  committed : ∃ temp, IsTemp ds blobRef temp ∧
    Committed ds fs0 blobRef source temp mirrorPartitions fs
  links : record.filterMap Entry.linked = mirrorPartitions.map (ds.partitionBlobFileName · blobRef)
  eof : source.err = none
  hashOk : ds.HashMatches blobRef source.bytes
  absent : ∀ p ∈ mirrorPartitions, fs0.names.lookup (ds.partitionBlobFileName p blobRef) = none
  nodup : (mirrorPartitions.map (ds.partitionBlobFileName · blobRef)).Nodup

def FailedAfterCommit (temp : Path) (err : Error) (fs : Store) (record : List Entry) : Prop :=
  ∃ linked rest, mirrorPartitions = linked ++ rest ∧
    AfterCommit ds fs0 blobRef source temp linked fs record ∧
    ((linked = [] ∧ StatError ds blobRef err) ∨
      ∃ partition rest', rest = partition :: rest' ∧ MirrorError ds blobRef partition err)

def FailedBeforeCommit (temp : Path) (err : Error) (fs : Store) (record : List Entry) : Prop :=
  IsTemp ds blobRef temp ∧ (∃ bytes, Holding fs0 temp bytes fs) ∧ Fresh record ∧
    (record.any Entry.closed → ¬ ds.HashMatches blobRef source.bytes → err = CorruptBlobError)

/-- What the store and the record are when the call stands at `pc`. -/
def AloneAt : Pc → Store → List Entry → Prop
  | .start, fs, record => fs = fs0 ∧ record = []
  | .tempFile, fs, record => fs = fs0 ∧ Fresh record ∧ ¬ record.any Entry.closed
  | .copy temp file reads hashed written, fs, record =>
      IsTemp ds blobRef temp ∧ file = fs0.next ∧ Holding fs0 temp hashed fs ∧
        written = hashed.length ∧ hashed ++ reads.flatten = source.bytes ∧ Fresh record ∧
        ¬ record.any Entry.closed
  | .sync temp hashed written, fs, record =>
      IsTemp ds blobRef temp ∧ Holding fs0 temp hashed fs ∧ hashed = source.bytes ∧
        written = hashed.length ∧ source.err = none ∧ Fresh record ∧ ¬ record.any Entry.closed
  | .close temp hashed written, fs, record =>
      IsTemp ds blobRef temp ∧ Holding fs0 temp hashed fs ∧ hashed = source.bytes ∧
        written = hashed.length ∧ source.err = none ∧ Fresh record ∧ ¬ record.any Entry.closed
  | .rename temp written, fs, record =>
      IsTemp ds blobRef temp ∧ Holding fs0 temp source.bytes fs ∧
        written = source.bytes.length ∧ source.err = none ∧ ds.HashMatches blobRef source.bytes ∧
        Fresh record
  | .lstat temp written, fs, record =>
      written = source.bytes.length ∧ AfterCommit ds fs0 blobRef source temp [] fs record
  | .mirror temp size partitions, fs, record =>
      size = source.bytes.length ∧ ∃ linked, mirrorPartitions = linked ++ partitions ∧
        AfterCommit ds fs0 blobRef source temp linked fs record
  | .link temp size partition partitions, fs, record =>
      size = source.bytes.length ∧ ∃ linked, mirrorPartitions = linked ++ partition :: partitions ∧
        AfterCommit ds fs0 blobRef source temp linked fs record
  | .notify blobGot partitions, fs, record =>
      blobGot = ⟨blobRef, source.bytes.length⟩ ∧
        Mirrored ds fs0 blobRef source mirrorPartitions fs record ∧
        record.filterMap Entry.notice ++ partitions.map (·, blobRef) =
          (ds.DefaultPartition :: mirrorPartitions).map (·, blobRef)
  | .cleanup temp err, fs, record =>
      FailedBeforeCommit ds fs0 blobRef source temp err fs record ∨
        FailedAfterCommit ds fs0 blobRef source mirrorPartitions temp err fs record
  | .done (.ok blobGot), fs, record =>
      blobGot = ⟨blobRef, source.bytes.length⟩ ∧
        Mirrored ds fs0 blobRef source mirrorPartitions fs record ∧
        record.filterMap Entry.notice = (ds.DefaultPartition :: mirrorPartitions).map (·, blobRef)
  | .done (.error err), fs, record =>
      ((Untouched fs0 fs ∨ ∃ temp bytes, IsTemp ds blobRef temp ∧ Holding fs0 temp bytes fs ∧
          record.any Entry.removeFailed) ∧ Fresh record ∧
        (record.any Entry.closed → ¬ ds.HashMatches blobRef source.bytes → err = CorruptBlobError)) ∨
      ∃ temp, FailedAfterCommit ds fs0 blobRef source mirrorPartitions temp err fs record

/-! ## The store along the call -/

variable {ds fs0 blobRef source mirrorPartitions}

theorem holding_create {temp : Path} (absent : fs0.names.lookup temp = none) :
    Holding fs0 temp [] (fs0.create temp) :=
  ⟨absent, fun q => by simp, by simp⟩

theorem Holding.write {temp : Path} {bytes : List UInt8} {fs : Store}
    (holding : Holding fs0 temp bytes fs) (buf : List UInt8) :
    Holding fs0 temp (bytes ++ buf) (fs.write fs0.next buf) := by
  obtain ⟨absent, names, data⟩ := holding
  exact ⟨absent, by simpa using names, by simp [data]⟩

theorem Holding.lookup_temp {temp : Path} {bytes : List UInt8} {fs : Store}
    (holding : Holding fs0 temp bytes fs) : fs.names.lookup temp = some fs0.next := by
  simp [holding.2.1]

theorem Holding.untouched_of_remove {temp : Path} {bytes : List UInt8} {fs fs' : Store}
    (holding : Holding fs0 temp bytes fs) (removed : fs.remove temp = .ok fs') :
    Untouched fs0 fs' := by
  obtain ⟨-, data, -, names⟩ := Store.remove_ok removed
  obtain ⟨absent, oldNames, oldData⟩ := holding
  refine ⟨fun q => ?_, fun i below => ?_⟩
  · by_cases same : q = temp
    · subst same; simp [names, absent]
    · simp [names, oldNames, same]
  · simp [data, oldData, Function.update_noteq (Nat.ne_of_lt below)]

theorem IsTemp.ne_blobFileName {temp : Path} (isTemp : IsTemp ds blobRef temp) (b : BlobRef) :
    temp ≠ ds.blobFileName b := by
  obtain ⟨suffix, rfl⟩ := isTemp
  exact ds.tempFileName_ne_blobFileName blobRef suffix b

theorem IsTemp.not_mem_partitionBlobFileNames {temp : Path} (isTemp : IsTemp ds blobRef temp)
    (b : BlobRef) (partitions : List Partition) :
    temp ∉ partitions.map (ds.partitionBlobFileName · b) := by
  obtain ⟨suffix, rfl⟩ := isTemp
  simp only [List.mem_map, not_exists, not_and]
  exact fun p _ same => ds.tempFileName_ne_partitionBlobFileName blobRef suffix p b same.symm

theorem Holding.commit {temp : Path} {fs fs' : Store} (isTemp : IsTemp ds blobRef temp)
    (holding : Holding fs0 temp source.bytes fs)
    (renamed : fs.rename temp (ds.blobFileName blobRef) = .ok fs') :
    Committed ds fs0 blobRef source temp [] fs' := by
  obtain ⟨i, found, data, -, names⟩ := Store.rename_ok renamed
  rw [holding.lookup_temp] at found
  cases found
  obtain ⟨absent, oldNames, oldData⟩ := holding
  refine ⟨absent, fun q => ?_, by rw [data, oldData]⟩
  by_cases canon : q = ds.blobFileName blobRef
  · simp [names, canon]
  · by_cases same : q = temp
    · simp [names, same, isTemp.ne_blobFileName]
    · simp [names, oldNames, canon, same]

theorem Committed.lookup_blobFileName {temp : Path} {linked : List Partition} {fs : Store}
    (committed : Committed ds fs0 blobRef source temp linked fs) :
    fs.names.lookup (ds.blobFileName blobRef) = some fs0.next := by
  simp [committed.2.1]

theorem Committed.lookup_temp {temp : Path} {linked : List Partition} {fs : Store}
    (isTemp : IsTemp ds blobRef temp) (committed : Committed ds fs0 blobRef source temp linked fs) :
    fs.names.lookup temp = none := by
  simp [committed.2.1, isTemp.ne_blobFileName, isTemp.not_mem_partitionBlobFileNames,
    committed.1]

theorem Committed.lstat {temp : Path} {linked : List Partition} {fs : Store}
    (committed : Committed ds fs0 blobRef source temp linked fs) :
    fs.Lstat (ds.blobFileName blobRef) = .ok ⟨true, source.bytes.length⟩ := by
  simp [Store.Lstat, Store.lstat, Store.contents, committed.lookup_blobFileName, committed.2.2,
    Except.map]

theorem Committed.link {temp : Path} {linked : List Partition} {fs fs' : Store}
    {partition : Partition} (committed : Committed ds fs0 blobRef source temp linked fs)
    (linkedNow : fs.link (ds.blobFileName blobRef) (ds.partitionBlobFileName partition blobRef) =
      .ok fs') :
    Committed ds fs0 blobRef source temp (linked ++ [partition]) fs' := by
  obtain ⟨i, found, -, data, -, names⟩ := Store.link_ok linkedNow
  rw [committed.lookup_blobFileName] at found
  cases found
  obtain ⟨absent, oldNames, oldData⟩ := committed
  refine ⟨absent, fun q => ?_, by rw [data, oldData]⟩
  by_cases new : q = ds.partitionBlobFileName partition blobRef
  · simp [names, new]
  · simp [names, oldNames, new]

theorem Committed.absent_of_link {temp : Path} {linked : List Partition} {fs fs' : Store}
    {partition : Partition} (isTemp : IsTemp ds blobRef temp)
    (committed : Committed ds fs0 blobRef source temp linked fs)
    (linkedNow : fs.link (ds.blobFileName blobRef) (ds.partitionBlobFileName partition blobRef) =
      .ok fs') :
    fs0.names.lookup (ds.partitionBlobFileName partition blobRef) = none ∧
      ds.partitionBlobFileName partition blobRef ∉ linked.map (ds.partitionBlobFileName · blobRef) := by
  obtain ⟨-, -, absent, -⟩ := Store.link_ok linkedNow
  rw [committed.2.1] at absent
  have notTemp : ds.partitionBlobFileName partition blobRef ≠ temp := fun same =>
    isTemp.not_mem_partitionBlobFileNames blobRef [partition] (by simp [same])
  split at absent
  · cases absent
  · rename_i fresh
    exact ⟨by simpa [notTemp] using absent, fun mem => fresh (.inr mem)⟩

/-! ## Every step keeps `AloneAt` -/

section Steps
variable {pc pc' : Pc} {fs fs' : Store} {record : List Entry} {o : Outcome}
  {ops : List (Op × Option Errno)}

theorem untouched_self : Untouched fs0 fs0 := ⟨fun _ => rfl, fun _ _ => rfl⟩

theorem AloneAt.step_start (n : Nat)
    (alone : AloneAt ds fs0 blobRef source mirrorPartitions .start fs record)
    (stepped : Call.step ds ⟨blobRef, source, mirrorPartitions, .start⟩ fs o = some (pc', fs', ops)) :
    AloneAt ds fs0 blobRef source mirrorPartitions pc' fs' (record ++ stamp n ops) := by
  obtain ⟨rfl, rfl⟩ := alone
  cases o <;> simp only [Call.step, Call.mkdirAll, Option.some.injEq, Prod.mk.injEq,
    reduceCtorEq] at stepped
  all_goals obtain ⟨rfl, rfl, rfl⟩ := stepped
  all_goals simp [AloneAt, untouched_self, Fresh]

theorem AloneAt.step_tempFile (n : Nat)
    (alone : AloneAt ds fs0 blobRef source mirrorPartitions .tempFile fs record)
    (stepped : Call.step ds ⟨blobRef, source, mirrorPartitions, .tempFile⟩ fs o =
      some (pc', fs', ops)) :
    AloneAt ds fs0 blobRef source mirrorPartitions pc' fs' (record ++ stamp n ops) := by
  obtain ⟨rfl, fresh, notClosed⟩ := alone
  cases o with
  | ok => simp [Call.step, Call.tempFile] at stepped
  | named suffix =>
      simp only [Call.step, Call.tempFile] at stepped
      split at stepped
      · cases stepped
      · rename_i absent
        simp only [Option.some.injEq, Prod.mk.injEq] at stepped
        obtain ⟨rfl, rfl, rfl⟩ := stepped
        exact ⟨⟨suffix, rfl⟩, rfl, holding_create absent, rfl, by simp [Source.bytes],
          fresh.append rfl rfl rfl, fun closed => notClosed (closed_of_append closed rfl)⟩
  | failed e _ =>
      simp only [Call.step, Call.tempFile, Option.some.injEq, Prod.mk.injEq] at stepped
      obtain ⟨rfl, rfl, rfl⟩ := stepped
      refine .inl ⟨.inl untouched_self, fresh.append rfl rfl rfl, fun closed =>
        absurd (closed_of_append closed rfl) notClosed⟩

theorem AloneAt.step_copy (n : Nat) {temp : Path} {file : Inode} {reads : List (List UInt8)}
    {hashed : List UInt8} {written : Nat}
    (alone : AloneAt ds fs0 blobRef source mirrorPartitions (.copy temp file reads hashed written)
      fs record)
    (stepped : Call.step ds ⟨blobRef, source, mirrorPartitions, .copy temp file reads hashed written⟩
      fs o = some (pc', fs', ops)) :
    AloneAt ds fs0 blobRef source mirrorPartitions pc' fs' (record ++ stamp n ops) := by
  obtain ⟨isTemp, rfl, holding, rfl, bytes, fresh, notClosed⟩ := alone
  cases reads with
  | cons buf reads =>
      cases o <;> simp only [Call.step, Call.copy, Option.some.injEq, Prod.mk.injEq,
        reduceCtorEq] at stepped
      · obtain ⟨rfl, rfl, rfl⟩ := stepped
        exact ⟨isTemp, rfl, holding.write buf, by simp, by simpa using bytes,
          fresh.append rfl rfl rfl, fun closed => notClosed (closed_of_append closed rfl)⟩
      · obtain ⟨rfl, rfl, rfl⟩ := stepped
        refine .inl ⟨isTemp, ⟨_, holding.write _⟩, fresh.append rfl rfl rfl, fun closed =>
          absurd (closed_of_append closed rfl) notClosed⟩
  | nil =>
      cases o <;> simp only [Call.step, Call.copy, Option.some.injEq, Prod.mk.injEq,
        reduceCtorEq] at stepped
      split at stepped <;> simp only [Option.some.injEq, Prod.mk.injEq] at stepped <;>
        obtain ⟨rfl, rfl, rfl⟩ := stepped
      · rename_i eof
        simp only [List.flatten_nil, List.append_nil] at bytes
        exact ⟨isTemp, holding, bytes, rfl, eof, fresh.append rfl rfl rfl,
          fun closed => notClosed (closed_of_append closed rfl)⟩
      · refine .inl ⟨isTemp, ⟨_, holding⟩, fresh.append rfl rfl rfl, fun closed =>
          absurd (closed_of_append closed rfl) notClosed⟩

theorem AloneAt.step_sync (n : Nat) {temp : Path} {hashed : List UInt8} {written : Nat}
    (alone : AloneAt ds fs0 blobRef source mirrorPartitions (.sync temp hashed written) fs record)
    (stepped : Call.step ds ⟨blobRef, source, mirrorPartitions, .sync temp hashed written⟩ fs o =
      some (pc', fs', ops)) :
    AloneAt ds fs0 blobRef source mirrorPartitions pc' fs' (record ++ stamp n ops) := by
  obtain ⟨isTemp, holding, bytes, rfl, eof, fresh, notClosed⟩ := alone
  cases o <;> simp only [Call.step, Call.sync, Option.some.injEq, Prod.mk.injEq,
    reduceCtorEq] at stepped
  all_goals obtain ⟨rfl, rfl, rfl⟩ := stepped
  · exact ⟨isTemp, holding, bytes, rfl, eof, fresh.append rfl rfl rfl,
      fun closed => notClosed (closed_of_append closed rfl)⟩
  · refine .inl ⟨isTemp, ⟨_, holding⟩, fresh.append rfl rfl rfl, fun closed =>
      absurd (closed_of_append closed rfl) notClosed⟩

theorem AloneAt.step_close (n : Nat) {temp : Path} {hashed : List UInt8} {written : Nat}
    (alone : AloneAt ds fs0 blobRef source mirrorPartitions (.close temp hashed written) fs record)
    (stepped : Call.step ds ⟨blobRef, source, mirrorPartitions, .close temp hashed written⟩ fs o =
      some (pc', fs', ops)) :
    AloneAt ds fs0 blobRef source mirrorPartitions pc' fs' (record ++ stamp n ops) := by
  obtain ⟨isTemp, holding, rfl, rfl, eof, fresh, notClosed⟩ := alone
  cases o with
  | ok =>
      simp only [Call.step, Call.close] at stepped
      split at stepped <;> simp only [Option.some.injEq, Prod.mk.injEq] at stepped <;>
        obtain ⟨rfl, rfl, rfl⟩ := stepped
      · exact ⟨isTemp, holding, rfl, eof, ‹_›, fresh.append rfl rfl rfl⟩
      · exact .inl ⟨isTemp, ⟨_, holding⟩, fresh.append rfl rfl rfl, fun _ _ => rfl⟩
  | named _ => simp [Call.step, Call.close] at stepped
  | failed e _ =>
      simp only [Call.step, Call.close, Option.some.injEq, Prod.mk.injEq] at stepped
      obtain ⟨rfl, rfl, rfl⟩ := stepped
      refine .inl ⟨isTemp, ⟨_, holding⟩, fresh.append rfl rfl rfl, fun closed =>
        absurd (closed_of_append closed rfl) notClosed⟩

theorem AloneAt.step_rename (n : Nat) {temp : Path} {written : Nat}
    (alone : AloneAt ds fs0 blobRef source mirrorPartitions (.rename temp written) fs record)
    (stepped : Call.step ds ⟨blobRef, source, mirrorPartitions, .rename temp written⟩ fs o =
      some (pc', fs', ops)) :
    AloneAt ds fs0 blobRef source mirrorPartitions pc' fs' (record ++ stamp n ops) := by
  obtain ⟨isTemp, holding, rfl, eof, hashOk, fresh⟩ := alone
  have failed : ∀ e, FailedBeforeCommit ds fs0 blobRef source temp
      (.LinkError "rename" temp (ds.blobFileName blobRef) e) fs
      (record ++ stamp n [(.Rename temp (ds.blobFileName blobRef), some e)]) :=
    fun e => ⟨isTemp, ⟨_, holding⟩, fresh.append rfl rfl rfl,
      fun _ mismatch => absurd hashOk mismatch⟩
  cases o with
  | ok =>
      simp only [Call.step, Call.rename] at stepped
      split at stepped <;> simp only [Option.some.injEq, Prod.mk.injEq] at stepped <;>
        obtain ⟨rfl, rfl, rfl⟩ := stepped
      · rename_i renamed
        exact ⟨rfl, isTemp, holding.commit isTemp renamed, by simpa using fresh.1,
          by simpa using fresh.2.1, by simpa using fresh.2.2, eof, hashOk, by simp, by simp⟩
      · exact .inl (failed _)
  | named _ => simp [Call.step, Call.rename] at stepped
  | failed e _ =>
      simp only [Call.step, Call.rename, Option.some.injEq, Prod.mk.injEq] at stepped
      obtain ⟨rfl, rfl, rfl⟩ := stepped
      exact .inl (failed e)

theorem AfterCommit.append {temp : Path} {linked : List Partition} {ops : List Entry}
    (after : AfterCommit ds fs0 blobRef source temp linked fs record)
    (renamed : ops.filterMap Entry.renamed = []) (linkedNone : ops.filterMap Entry.linked = [])
    (noticed : ops.filterMap Entry.notice = []) :
    AfterCommit ds fs0 blobRef source temp linked fs (record ++ ops) := by
  exact { after with
    renamed := by simp [after.renamed, renamed]
    links := by simp [after.links, linkedNone]
    noNotice := by simp [after.noNotice, noticed] }

theorem AloneAt.step_lstat (n : Nat) {temp : Path} {written : Nat}
    (alone : AloneAt ds fs0 blobRef source mirrorPartitions (.lstat temp written) fs record)
    (stepped : Call.step ds ⟨blobRef, source, mirrorPartitions, .lstat temp written⟩ fs o =
      some (pc', fs', ops)) :
    AloneAt ds fs0 blobRef source mirrorPartitions pc' fs' (record ++ stamp n ops) := by
  obtain ⟨rfl, after⟩ := alone
  cases o with
  | ok =>
      simp only [Call.step, Call.lstat, after.committed.lstat, bne_self_eq_false, Bool.not_true,
        Bool.or_self, Bool.false_eq_true, if_false, Option.some.injEq, Prod.mk.injEq] at stepped
      obtain ⟨rfl, rfl, rfl⟩ := stepped
      exact ⟨rfl, [], rfl, after.append (by simp) (by simp) (by simp)⟩
  | named _ => simp [Call.step, Call.lstat] at stepped
  | failed e _ =>
      simp only [Call.step, Call.lstat, Option.some.injEq, Prod.mk.injEq] at stepped
      obtain ⟨rfl, rfl, rfl⟩ := stepped
      exact .inr ⟨[], mirrorPartitions, rfl, after.append (by simp) (by simp) (by simp),
        .inl ⟨rfl, .inl ⟨e, rfl⟩⟩⟩

theorem AloneAt.step_mirror (n : Nat) {temp : Path} {size : Nat} {partitions : List Partition}
    (alone : AloneAt ds fs0 blobRef source mirrorPartitions (.mirror temp size partitions) fs record)
    (stepped : Call.step ds ⟨blobRef, source, mirrorPartitions, .mirror temp size partitions⟩ fs o =
      some (pc', fs', ops)) :
    AloneAt ds fs0 blobRef source mirrorPartitions pc' fs' (record ++ stamp n ops) := by
  obtain ⟨rfl, linked, split, after⟩ := alone
  cases partitions with
  | cons partition partitions =>
      cases o <;> simp only [Call.step, Call.mirror, Option.some.injEq, Prod.mk.injEq,
        reduceCtorEq] at stepped
      all_goals obtain ⟨rfl, rfl, rfl⟩ := stepped
      · exact ⟨rfl, linked, split, after.append (by simp) (by simp) (by simp)⟩
      · exact .inr ⟨linked, _, split, after.append (by simp) (by simp) (by simp),
          .inr ⟨partition, partitions, rfl, .inl ⟨_, _, List.take_prefix _ _, rfl⟩⟩⟩
  | nil =>
      cases o <;> simp only [Call.step, Call.mirror, Option.some.injEq, Prod.mk.injEq,
        reduceCtorEq] at stepped
      obtain ⟨rfl, rfl, rfl⟩ := stepped
      rw [List.append_nil] at split
      subst split
      exact ⟨rfl, ⟨⟨temp, after.isTemp, after.committed⟩, by simpa using after.links, after.eof,
        after.hashOk, after.absent, after.nodup⟩, by simp [after.noNotice]⟩

theorem AloneAt.step_link (n : Nat) {temp : Path} {size : Nat} {partition : Partition}
    {partitions : List Partition}
    (alone : AloneAt ds fs0 blobRef source mirrorPartitions (.link temp size partition partitions)
      fs record)
    (stepped : Call.step ds ⟨blobRef, source, mirrorPartitions, .link temp size partition partitions⟩
      fs o = some (pc', fs', ops)) :
    AloneAt ds fs0 blobRef source mirrorPartitions pc' fs' (record ++ stamp n ops) := by
  obtain ⟨rfl, linked, split, after⟩ := alone
  have failed : ∀ err, MirrorError ds blobRef partition err → ∀ e,
      AloneAt ds fs0 blobRef source mirrorPartitions (.cleanup temp err) fs
        (record ++ stamp n [(.Link (ds.blobFileName blobRef)
          (ds.partitionBlobFileName partition blobRef), some e)]) :=
    fun err mirrorError e => .inr ⟨linked, _, split, after.append (by simp) (by simp) (by simp),
      .inr ⟨partition, partitions, rfl, mirrorError⟩⟩
  cases o with
  | ok =>
      simp only [Call.step, Call.link] at stepped
      split at stepped <;> simp only [Option.some.injEq, Prod.mk.injEq] at stepped <;>
        obtain ⟨rfl, rfl, rfl⟩ := stepped
      · rename_i linkedNow
        obtain ⟨absent, fresh⟩ := after.committed.absent_of_link after.isTemp linkedNow
        exact ⟨rfl, linked ++ [partition], by simp [split],
          { after with
            committed := after.committed.link linkedNow
            renamed := by simp [after.renamed]
            links := by simp [after.links]
            noNotice := by simp [after.noNotice]
            absent := fun p mem => (List.mem_append.mp mem).elim (after.absent p)
              fun single => List.eq_of_mem_singleton single ▸ absent
            nodup := by
              rw [List.map_append, List.map_singleton]
              exact List.nodup_append.mpr ⟨after.nodup, List.nodup_singleton _,
                List.disjoint_singleton.mpr fresh⟩ }⟩
      · exact failed _ (.inr ⟨_, rfl⟩) _
  | named _ => simp [Call.step, Call.link] at stepped
  | failed e _ =>
      simp only [Call.step, Call.link, Option.some.injEq, Prod.mk.injEq] at stepped
      obtain ⟨rfl, rfl, rfl⟩ := stepped
      exact failed _ (.inr ⟨_, rfl⟩) _

theorem AloneAt.step_notify (n : Nat) {blobGot : SizedBlobRef} {partitions : List Partition}
    (alone : AloneAt ds fs0 blobRef source mirrorPartitions (.notify blobGot partitions) fs record)
    (stepped : Call.step ds ⟨blobRef, source, mirrorPartitions, .notify blobGot partitions⟩ fs o =
      some (pc', fs', ops)) :
    AloneAt ds fs0 blobRef source mirrorPartitions pc' fs' (record ++ stamp n ops) := by
  obtain ⟨rfl, mirrored, no⟩ := alone
  have mirrored' : ∀ ops : List Entry, ops.filterMap Entry.linked = [] →
      Mirrored ds fs0 blobRef source mirrorPartitions fs (record ++ ops) := fun ops quiet =>
    { mirrored with links := by simp [mirrored.links, quiet] }
  cases partitions <;> cases o <;> simp only [Call.step, Call.notify, Option.some.injEq,
    Prod.mk.injEq, reduceCtorEq] at stepped
  all_goals obtain ⟨rfl, rfl, rfl⟩ := stepped
  · exact ⟨rfl, mirrored' _ rfl, by simpa using no⟩
  · exact ⟨rfl, mirrored' _ (by simp), by simpa using no⟩

theorem AloneAt.step_cleanup (n : Nat) {temp : Path} {err : Error}
    (alone : AloneAt ds fs0 blobRef source mirrorPartitions (.cleanup temp err) fs record)
    (stepped : Call.step ds ⟨blobRef, source, mirrorPartitions, .cleanup temp err⟩ fs o =
      some (pc', fs', ops)) :
    AloneAt ds fs0 blobRef source mirrorPartitions pc' fs' (record ++ stamp n ops) := by
  have kept : ∀ e, FailedAfterCommit ds fs0 blobRef source mirrorPartitions temp err fs record →
      AloneAt ds fs0 blobRef source mirrorPartitions (.done (.error err)) fs
        (record ++ stamp n [(.Remove temp, e)]) := by
    rintro e ⟨linked, rest, split, after, failure⟩
    exact .inr ⟨temp, linked, rest, split, after.append (by simp) (by simp) (by simp), failure⟩
  have leftBehind : ∀ e, FailedBeforeCommit ds fs0 blobRef source temp err fs record →
      AloneAt ds fs0 blobRef source mirrorPartitions (.done (.error err)) fs
        (record ++ stamp n [(.Remove temp, some e)]) := by
    rintro e ⟨isTemp, ⟨bytes, holding⟩, fresh, corrupt⟩
    exact .inl ⟨.inr ⟨temp, bytes, isTemp, holding, by simp⟩, fresh.append rfl rfl rfl,
      fun closed => corrupt (closed_of_append closed rfl)⟩
  cases o with
  | ok =>
      simp only [Call.step, Call.cleanup] at stepped
      split at stepped <;> simp only [Option.some.injEq, Prod.mk.injEq] at stepped <;>
        obtain ⟨rfl, rfl, rfl⟩ := stepped
      · rename_i removed
        rcases alone with ⟨isTemp, ⟨bytes, holding⟩, fresh, corrupt⟩ |
          ⟨linked, rest, split, after, -⟩
        · exact .inl ⟨.inl (holding.untouched_of_remove removed), fresh.append rfl rfl rfl,
            fun closed => corrupt (closed_of_append closed rfl)⟩
        · exact absurd (after.committed.lookup_temp after.isTemp) (Store.remove_ok removed).1
      · rcases alone with before | after
        · exact leftBehind _ before
        · exact kept _ after
  | named _ => simp [Call.step, Call.cleanup] at stepped
  | failed e _ =>
      simp only [Call.step, Call.cleanup, Option.some.injEq, Prod.mk.injEq] at stepped
      obtain ⟨rfl, rfl, rfl⟩ := stepped
      rcases alone with before | after
      · exact leftBehind _ before
      · exact kept _ after

theorem AloneAt.step (n : Nat)
    (alone : AloneAt ds fs0 blobRef source mirrorPartitions pc fs record)
    (stepped : Call.step ds ⟨blobRef, source, mirrorPartitions, pc⟩ fs o = some (pc', fs', ops)) :
    AloneAt ds fs0 blobRef source mirrorPartitions pc' fs' (record ++ stamp n ops) := by
  cases pc with
  | start => exact alone.step_start n stepped
  | tempFile => exact alone.step_tempFile n stepped
  | copy => exact alone.step_copy n stepped
  | sync => exact alone.step_sync n stepped
  | close => exact alone.step_close n stepped
  | rename => exact alone.step_rename n stepped
  | lstat => exact alone.step_lstat n stepped
  | mirror => exact alone.step_mirror n stepped
  | link => exact alone.step_link n stepped
  | notify => exact alone.step_notify n stepped
  | cleanup => exact alone.step_cleanup n stepped
  | done => simp [Call.step] at stepped

end Steps

variable (ds fs0 blobRef source mirrorPartitions) in
def Alone (s : Sys) : Prop :=
  ∃ pc, s.calls = [⟨blobRef, source, mirrorPartitions, pc⟩] ∧
    AloneAt ds fs0 blobRef source mirrorPartitions pc s.store s.record

theorem Alone.step {s s' : Sys} {e : Event} (alone : Alone ds fs0 blobRef source mirrorPartitions s)
    (stepped : s.step ds e = some s') : Alone ds fs0 blobRef source mirrorPartitions s' := by
  obtain ⟨pc, calls, aloneAt⟩ := alone
  obtain ⟨c, pc', ops, found, callStep, calls', record'⟩ := Sys.step_eq_some ds stepped
  rw [calls] at found calls'
  match e with
  | ⟨0, o⟩ =>
      cases found
      exact ⟨pc', by simpa using calls', record' ▸ aloneAt.step 0 callStep⟩
  | ⟨_ + 1, _⟩ => simp at found

theorem Alone.run {s s' : Sys} {events : List Event}
    (alone : Alone ds fs0 blobRef source mirrorPartitions s) (ran : s.run ds events = some s') :
    Alone ds fs0 blobRef source mirrorPartitions s' := by
  induction events generalizing s with
  | nil => cases ran; exact alone
  | cons e events ih =>
      rw [Sys.run_cons, Option.bind_eq_some] at ran
      obtain ⟨s'', stepped, ran⟩ := ran
      exact ih (alone.step stepped) ran

theorem alone_of_run {s : Sys} {events : List Event}
    (ran : (Sys.init fs0 [ReceiveBlob blobRef source mirrorPartitions]).run ds events = some s) :
    Alone ds fs0 blobRef source mirrorPartitions s :=
  Alone.run ⟨.start, rfl, rfl, rfl⟩ ran

end Alone

end Camlistore
