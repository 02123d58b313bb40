import Camlistore.SingleCall

/-! # What one call leaves behind

Read off `AloneAt` at the `return`: a success commits the streamed bytes under the canonical
name and links them into every mirror partition; a failure before the `Rename` leaves the store
as it was; a failure after it keeps the commit and the links of a prefix of the partitions; the
hubs hear of the blob exactly on success, the default partition first. -/

set_option autoImplicit false

namespace Camlistore

section Contract
variable {ds : DiskStorage} {fs0 : Store} {blobRef : BlobRef} {source : Source}
  {mirrorPartitions : List Partition}

theorem Untouched.contents {fs : Store} (untouched : Untouched fs0 fs) (q : Path) :
    fs.contents q = fs0.contents q := by
  unfold Store.contents
  rw [untouched.1 q]
  cases found : fs0.names.lookup q with
  | none => rfl
  | some i => simp [untouched.2 i (fs0.lookup_lt found)]

theorem Committed.contents_blobFileName {temp : Path} {linked : List Partition} {fs : Store}
    (committed : Committed ds fs0 blobRef source temp linked fs) :
    fs.contents (ds.blobFileName blobRef) = some source.bytes := by
  simp [Store.contents, committed.lookup_blobFileName, committed.2.2]

theorem Committed.lookup {temp : Path} {linked : List Partition} {fs : Store}
    (committed : Committed ds fs0 blobRef source temp linked fs) (q : Path) :
    fs.names.lookup q =
      if q = ds.blobFileName blobRef ∨ q ∈ linked.map (ds.partitionBlobFileName · blobRef) then
        fs.names.lookup (ds.blobFileName blobRef)
      else fs0.names.lookup q := by
  rw [committed.2.1 q, committed.lookup_blobFileName]
  split
  · rfl
  · split
    · rename_i same; subst same; exact committed.1.symm
    · rfl

def sampleBlob : BlobRef := ⟨"sha1", String.mk [Char.ofNat 1, Char.ofNat 2]⟩

def successEvents : List Event := ⟨0, .ok⟩ :: ⟨0, .named "1"⟩ :: List.replicate 13 ⟨0, .ok⟩

def successRun : Sys :=
  ((Sys.init Store.empty [ReceiveBlob sampleBlob ⟨[[1], [2]], none⟩ ["m"]]).run sampleStorage
    successEvents).getD (Sys.init Store.empty [])

def corruptEvents : List Event := ⟨0, .ok⟩ :: ⟨0, .named "1"⟩ :: List.replicate 6 ⟨0, .ok⟩

def corruptRun : Sys :=
  ((Sys.init Store.empty [ReceiveBlob sampleBlob ⟨[[1], [3]], none⟩ []]).run sampleStorage
    corruptEvents).getD (Sys.init Store.empty [])

def linkFailedEvents : List Event :=
  ⟨0, .ok⟩ :: ⟨0, .named "1"⟩ :: List.replicate 8 ⟨0, .ok⟩ ++ [⟨0, .failed ⟨5⟩ 0⟩, ⟨0, .ok⟩]

def linkFailedRun : Sys :=
  ((Sys.init Store.empty [ReceiveBlob sampleBlob ⟨[[1], [2]], none⟩ ["m"]]).run sampleStorage
    linkFailedEvents).getD (Sys.init Store.empty [])

theorem aloneAt_of_returned {s : Sys} {events : List Event} {result : Except Error SizedBlobRef}
    (ran : (Sys.init fs0 [ReceiveBlob blobRef source mirrorPartitions]).run ds events = some s)
    (returned : s.calls = [⟨blobRef, source, mirrorPartitions, .done result⟩]) :
    AloneAt ds fs0 blobRef source mirrorPartitions (.done result) s.store s.record := by
  obtain ⟨pc, calls, aloneAt⟩ := alone_of_run ran
  rw [returned, List.cons.injEq, Call.mk.injEq] at calls
  exact calls.1.2.2.2 ▸ aloneAt

/-- A call that returns an error without having renamed its temp file, and whose deferred
`os.Remove` did not fail, leaves every entry of the store as it found it and tells no hub. -/
theorem receiveBlob_failure_before_rename_restores_store {s : Sys} {events : List Event}
    {err : Error}
    (ran : (Sys.init fs0 [ReceiveBlob blobRef source mirrorPartitions]).run ds events = some s)
    (returned : s.calls = [⟨blobRef, source, mirrorPartitions, .done (.error err)⟩])
    (notRenamed : s.record.filterMap Entry.renamed = [])
    (removeSucceeded : s.record.any Entry.removeFailed = false) :
    (∀ q, s.store.names.lookup q = fs0.names.lookup q ∧ s.store.contents q = fs0.contents q) ∧
      s.record.filterMap Entry.notice = [] := by
  rcases aloneAt_of_returned ran returned with
    ⟨untouched | ⟨_, _, _, _, removeFailed⟩, fresh, -⟩ | ⟨_, _, _, _, after, -⟩
  · exact ⟨fun q => ⟨untouched.1 q, untouched.contents q⟩, fresh.2.2⟩
  · rw [removeFailed] at removeSucceeded; cases removeSucceeded
  · rw [after.renamed] at notRenamed; cases notRenamed

theorem corrupt_blob_restores_store :
    corruptRun.calls = [⟨sampleBlob, ⟨[[1], [3]], none⟩, [], .done (.error CorruptBlobError)⟩] ∧
      corruptRun.record.filterMap Entry.renamed = [] ∧
      corruptRun.record.any Entry.removeFailed = false ∧
      (∀ q, corruptRun.store.names.lookup q = Store.empty.names.lookup q ∧
        corruptRun.store.contents q = Store.empty.contents q) ∧
      corruptRun.record.filterMap Entry.notice = [] :=
  ⟨rfl, rfl, rfl, @receiveBlob_failure_before_rename_restores_store sampleStorage Store.empty
    sampleBlob ⟨[[1], [3]], none⟩ [] corruptRun corruptEvents _ rfl rfl rfl rfl⟩

/-- A successful call returns the verified bytes' length and leaves them under the canonical and
mirror names; bytes that do not match fail the call, with `CorruptBlobError` once closed. -/
theorem receiveBlob_returns_verified_blob {s : Sys} {events : List Event}
    {result : Except Error SizedBlobRef}
    (ran : (Sys.init fs0 [ReceiveBlob blobRef source mirrorPartitions]).run ds events = some s)
    (returned : s.calls = [⟨blobRef, source, mirrorPartitions, .done result⟩]) :
    (∀ blobGot, result = .ok blobGot →
      source.err = none ∧ ds.HashMatches blobRef source.bytes ∧
      blobGot = ⟨blobRef, source.bytes.length⟩ ∧
      s.store.contents (ds.blobFileName blobRef) = some source.bytes ∧
      (∀ partition ∈ mirrorPartitions,
        s.store.names.lookup (ds.partitionBlobFileName partition blobRef) =
          s.store.names.lookup (ds.blobFileName blobRef)) ∧
      ∀ q, q ≠ ds.blobFileName blobRef →
        q ∉ mirrorPartitions.map (ds.partitionBlobFileName · blobRef) →
        s.store.names.lookup q = fs0.names.lookup q) ∧
    (ds.HashMatches blobRef source.bytes = false →
      ∃ err, result = .error err ∧ (s.record.any Entry.closed → err = CorruptBlobError)) := by
  have aloneAt := aloneAt_of_returned ran returned
  cases result with
  | ok blobGot =>
      obtain ⟨rfl, ⟨⟨temp, -, committed⟩, -, eof, hashOk, -⟩, -⟩ := aloneAt
      refine ⟨fun _ got => ?_, fun mismatch => by rw [hashOk] at mismatch; cases mismatch⟩
      cases got
      refine ⟨eof, hashOk, rfl, committed.contents_blobFileName, fun partition mem => ?_,
        fun q canon notLinked => ?_⟩
      · rw [committed.lookup]
        simp [List.mem_map_of_mem (ds.partitionBlobFileName · blobRef) mem]
      · simp [committed.lookup q, canon, notLinked]
  | error err =>
      refine ⟨fun _ got => (nomatch got), fun mismatch => ⟨err, rfl, fun closed => ?_⟩⟩
      rcases aloneAt with ⟨-, -, corrupt⟩ | ⟨_, _, _, _, after, -⟩
      · exact corrupt closed (by simp [mismatch])
      · rw [after.hashOk] at mismatch; cases mismatch

theorem success_run_returns_verified_blob :
    successRun.calls = [⟨sampleBlob, ⟨[[1], [2]], none⟩, ["m"], .done (.ok ⟨sampleBlob, 2⟩)⟩] ∧
      successRun.store.contents (sampleStorage.blobFileName sampleBlob) = some [1, 2] ∧
      successRun.store.names.lookup (sampleStorage.partitionBlobFileName "m" sampleBlob) =
        successRun.store.names.lookup (sampleStorage.blobFileName sampleBlob) :=
  have verified := (@receiveBlob_returns_verified_blob sampleStorage Store.empty sampleBlob
    ⟨[[1], [2]], none⟩ ["m"] successRun successEvents _ rfl rfl).1 _ rfl
  ⟨rfl, verified.2.2.2.1, verified.2.2.2.2.1 "m" (List.mem_singleton_self _)⟩

/-- A call that fails after its `Rename` keeps the blob committed, tells no hub, and has linked
exactly the partitions before the one whose directory or link failed. -/
theorem receiveBlob_failure_after_rename_keeps_commit {s : Sys} {events : List Event}
    {err : Error}
    (ran : (Sys.init fs0 [ReceiveBlob blobRef source mirrorPartitions]).run ds events = some s)
    (returned : s.calls = [⟨blobRef, source, mirrorPartitions, .done (.error err)⟩])
    (renamed : s.record.filterMap Entry.renamed ≠ []) :
    s.store.contents (ds.blobFileName blobRef) = some source.bytes ∧
      s.record.filterMap Entry.notice = [] ∧
      ∃ linked rest, mirrorPartitions = linked ++ rest ∧
        s.record.filterMap Entry.linked = linked.map (ds.partitionBlobFileName · blobRef) ∧
        (∀ q, s.store.names.lookup q =
          if q = ds.blobFileName blobRef ∨ q ∈ linked.map (ds.partitionBlobFileName · blobRef)
          then s.store.names.lookup (ds.blobFileName blobRef) else fs0.names.lookup q) ∧
        ((linked = [] ∧ StatError ds blobRef err) ∨
          ∃ partition rest', rest = partition :: rest' ∧ MirrorError ds blobRef partition err) := by
  rcases aloneAt_of_returned ran returned with
    ⟨-, ⟨notRenamed, -⟩, -⟩ | ⟨temp, linked, rest, split, after, failure⟩
  · exact absurd notRenamed renamed
  · exact ⟨after.committed.contents_blobFileName, after.noNotice, linked, rest, split, after.links,
      after.committed.lookup, failure⟩

theorem link_failure_keeps_commit :
    linkFailedRun.calls = [⟨sampleBlob, ⟨[[1], [2]], none⟩, ["m"], .done (.error (.LinkError "link"
        (sampleStorage.blobFileName sampleBlob) (sampleStorage.partitionBlobFileName "m" sampleBlob)
        ⟨5⟩))⟩] ∧
      linkFailedRun.record.filterMap Entry.renamed ≠ [] ∧
      linkFailedRun.store.contents (sampleStorage.blobFileName sampleBlob) = some [1, 2] :=
  ⟨rfl, by decide, (@receiveBlob_failure_after_rename_keeps_commit sampleStorage Store.empty
    sampleBlob ⟨[[1], [2]], none⟩ ["m"] linkFailedRun linkFailedEvents _ rfl rfl (by decide)).1⟩

/-- The mirror's directory `p/m/sha1/..` cannot be made because its ancestor `p/m` cannot. -/
example : ((Sys.init Store.empty [ReceiveBlob sampleBlob ⟨[[1], [2]], none⟩ ["m"]]).run
      sampleStorage (⟨0, .ok⟩ :: ⟨0, .named "1"⟩ :: List.replicate 7 ⟨0, .ok⟩ ++
        [⟨0, .failed ⟨13⟩ 2⟩, ⟨0, .ok⟩])).map (·.calls.map Call.pc) =
    some [.done (.error (.PathError "mkdir" ["p", "m"] ⟨13⟩))] := rfl

/-- The hubs told by a call: the default partition's, then each mirror partition's in order, on
success; none on failure. -/
theorem receiveBlob_notifies_exactly_on_success {s : Sys} {events : List Event}
    {result : Except Error SizedBlobRef}
    (ran : (Sys.init fs0 [ReceiveBlob blobRef source mirrorPartitions]).run ds events = some s)
    (returned : s.calls = [⟨blobRef, source, mirrorPartitions, .done result⟩]) :
    s.record.filterMap Entry.notice =
      match result with
      | .ok _ => (ds.DefaultPartition :: mirrorPartitions).map (·, blobRef)
      | .error _ => [] := by
  have aloneAt := aloneAt_of_returned ran returned
  cases result with
  | ok => exact aloneAt.2.2
  | error =>
      rcases aloneAt with ⟨-, fresh, -⟩ | ⟨_, _, _, _, after, -⟩
      · exact fresh.2.2
      · exact after.noNotice

theorem success_run_notifies_default_then_mirror :
    successRun.calls = [⟨sampleBlob, ⟨[[1], [2]], none⟩, ["m"], .done (.ok ⟨sampleBlob, 2⟩)⟩] ∧
      successRun.record.filterMap Entry.notice = [("", sampleBlob), ("m", sampleBlob)] :=
  ⟨rfl, @receiveBlob_notifies_exactly_on_success sampleStorage Store.empty sampleBlob
    ⟨[[1], [2]], none⟩ ["m"] successRun successEvents _ rfl rfl⟩

/-- A call succeeds only on a store that has none of its mirror names, from a list naming each
mirror once: `os.Link` fails on an existing name, and the loop returns on that failure. -/
theorem receiveBlob_success_needs_absent_mirror_names {s : Sys} {events : List Event}
    {blobGot : SizedBlobRef}
    (ran : (Sys.init fs0 [ReceiveBlob blobRef source mirrorPartitions]).run ds events = some s)
    (returned : s.calls = [⟨blobRef, source, mirrorPartitions, .done (.ok blobGot)⟩]) :
    (∀ partition ∈ mirrorPartitions,
      fs0.names.lookup (ds.partitionBlobFileName partition blobRef) = none) ∧
      (mirrorPartitions.map (ds.partitionBlobFileName · blobRef)).Nodup := by
  obtain ⟨-, mirrored, -⟩ := aloneAt_of_returned ran returned
  exact ⟨mirrored.absent, mirrored.nodup⟩

theorem success_run_found_mirror_name_absent :
    (∀ partition ∈ ["m"],
      Store.empty.names.lookup (sampleStorage.partitionBlobFileName partition sampleBlob) = none) ∧
      (["m"].map (sampleStorage.partitionBlobFileName · sampleBlob)).Nodup :=
  @receiveBlob_success_needs_absent_mirror_names sampleStorage Store.empty sampleBlob
    ⟨[[1], [2]], none⟩ ["m"] successRun successEvents _ rfl rfl

/-- The same receive again, on the store the first one left, with no environmental failure. -/
def retryEvents : List Event := ⟨0, .ok⟩ :: ⟨0, .named "1"⟩ :: List.replicate 10 ⟨0, .ok⟩

def retryRun : Sys :=
  ((Sys.init successRun.store [ReceiveBlob sampleBlob ⟨[[1], [2]], none⟩ ["m"]]).run sampleStorage
    retryEvents).getD (Sys.init Store.empty [])

/-- Retrying a successful receive with a mirror partition fails at `os.Link` with `EEXIST`, though
no filesystem call failed for an environmental reason. -/
theorem retry_with_mirror_fails_at_link :
    (Sys.init successRun.store [ReceiveBlob sampleBlob ⟨[[1], [2]], none⟩ ["m"]]).run sampleStorage
        retryEvents = some retryRun ∧
      (∀ e ∈ retryEvents, e.outcome.isFailure = false) ∧
      retryRun.calls.map Call.pc =
        [.done (.error (.LinkError "link" (sampleStorage.blobFileName sampleBlob)
          (sampleStorage.partitionBlobFileName "m" sampleBlob) EEXIST))] :=
  ⟨rfl, by decide, rfl⟩

end Contract

end Camlistore
