import Camlistore.Integrity

/-! # What a receive leaves behind

Any number of calls of any blobs, with any sources and mirror lists, share the store in any
interleaving, and any filesystem call may fail.  A name goes away only by the `Rename` of a temp
file or the deferred `os.Remove` of one, a name that changes is given a file made after the
calls began, and only the calls' own inodes are written.  Three results follow.

* A canonical or mirror name, once there, stays.  A call that returned its blob, and a hub told
  of a blob, find it under its canonical name and its mirror names in that state and every later
  one, with bytes that match the digest as long as no call has failed after its `Rename`.
* `os.Link` refuses a name that is there, so no name is linked twice: of the calls that mirror
  one blob to one partition at most one returns success, and none does where the mirror name was
  there before the calls.
* Once every call has returned, the only names that differ from the start are the calls' blob
  names and temp names whose deferred `os.Remove` failed, and every other name holds the bytes
  it held: the receive path leaks a temp file only where `os.Remove` fails. -/

set_option autoImplicit false

namespace Camlistore

theorem eq_of_filterMap_nodup {α β : Type} {f : α → Option β} {l : List α}
    (nodup : (l.filterMap f).Nodup) {a b : α} (memA : a ∈ l) (memB : b ∈ l) {y : β}
    (fa : f a = some y) (fb : f b = some y) : a = b := by
  induction l with
  | nil => cases memA
  | cons x xs ih =>
      have seen : ∀ c ∈ xs, f c = some y → y ∈ xs.filterMap f :=
        fun c mem fc => List.mem_filterMap.mpr ⟨c, mem, fc⟩
      rw [List.filterMap_cons] at nodup
      rcases List.mem_cons.mp memA with rfl | inA <;> rcases List.mem_cons.mp memB with rfl | inB
      · rfl
      · rw [fa, List.nodup_cons] at nodup
        exact absurd (seen b inB fb) nodup.1
      · rw [fb, List.nodup_cons] at nodup
        exact absurd (seen a inA fa) nodup.1
      · cases fx : f x <;> rw [fx] at nodup
        · exact ih nodup inA inB
        · exact ih (List.nodup_cons.mp nodup).2 inA inB

def Call.blobNames (ds : DiskStorage) (c : Call) : List Path :=
  ds.blobFileName c.blobRef ::
    c.mirrorPartitions.map fun partition => ds.partitionBlobFileName partition c.blobRef

theorem namesBlob_of_mem_blobNames {ds : DiskStorage} {c : Call} {q : Path}
    (named : q ∈ c.blobNames ds) : NamesBlob ds c.blobRef q := by
  rcases List.mem_cons.mp named with canonical | mirror
  · exact .inl canonical
  · obtain ⟨partition, -, rfl⟩ := List.mem_map.mp mirror
    exact .inr ⟨partition, rfl⟩

theorem blobNames_of_restart {ds : DiskStorage} {calls calls' : List Call}
    (restart : calls.map (fun c => { c with pc := .start }) =
      calls'.map fun c => { c with pc := .start })
    {q : Path} (named : ∃ c ∈ calls, q ∈ c.blobNames ds) : ∃ c ∈ calls', q ∈ c.blobNames ds := by
  obtain ⟨c, mem, named⟩ := named
  have restarted := List.mem_map_of_mem (fun c => { c with pc := .start }) mem
  rw [restart] at restarted
  obtain ⟨c', mem', same⟩ := List.mem_map.mp restarted
  have names := congrArg (Call.blobNames ds) same
  exact ⟨c', mem', (names : c'.blobNames ds = c.blobNames ds) ▸ named⟩

section Landed

variable (ds : DiskStorage) (fs0 : Store)

def NamesNew (fs : Store) (q : Path) : Prop :=
  ∃ file, fs.names.lookup q = some file ∧ fs0.next ≤ file

def FreshTemp (fs : Store) (blobRef : BlobRef) (temp : Path) : Prop :=
  (∃ suffix, temp = ds.tempFileName blobRef suffix) ∧ fs0.names.lookup temp = none ∧
    ∀ file, fs.names.lookup temp = some file → fs0.next ≤ file

def MirrorLinked (fs : Store) (record : List Entry) (j : Nat) (blobRef : BlobRef)
    (partition : Partition) : Prop :=
  NamesNew fs0 fs (ds.partitionBlobFileName partition blobRef) ∧
    ∃ e ∈ record, e.call = j ∧ e.linked = some (ds.partitionBlobFileName partition blobRef)

/-- What call `j` of `blobRef`, with mirrors `mirrors`, has made sure of at each counter,
whatever has failed. -/
def LandedAt (fs : Store) (record : List Entry) (j : Nat) (blobRef : BlobRef)
    (mirrors : List Partition) : Pc → Prop
  | .start | .tempFile | .done (.error _) => True
  | .copy temp file .. => FreshTemp ds fs0 fs blobRef temp ∧ fs0.next ≤ file
  | .sync temp .. | .close temp .. | .rename temp _ | .cleanup temp _ =>
      FreshTemp ds fs0 fs blobRef temp
  | .lstat temp _ => FreshTemp ds fs0 fs blobRef temp ∧ NamesNew fs0 fs (ds.blobFileName blobRef)
  | .mirror temp _ rest =>
      FreshTemp ds fs0 fs blobRef temp ∧ NamesNew fs0 fs (ds.blobFileName blobRef) ∧
        ∃ pre, mirrors = pre ++ rest ∧ ∀ p ∈ pre, MirrorLinked ds fs0 fs record j blobRef p
  | .link temp _ partition rest =>
      FreshTemp ds fs0 fs blobRef temp ∧ NamesNew fs0 fs (ds.blobFileName blobRef) ∧
        ∃ pre, mirrors = pre ++ partition :: rest ∧
          ∀ p ∈ pre, MirrorLinked ds fs0 fs record j blobRef p
  | .notify _ rest =>
      NamesNew fs0 fs (ds.blobFileName blobRef) ∧
        (∀ p ∈ mirrors, MirrorLinked ds fs0 fs record j blobRef p) ∧
        ∀ p ∈ rest, p = ds.DefaultPartition ∨ p ∈ mirrors
  | .done (.ok _) =>
      NamesNew fs0 fs (ds.blobFileName blobRef) ∧
        ∀ p ∈ mirrors, MirrorLinked ds fs0 fs record j blobRef p

def Backed (fs : Store) (partition : Partition) (blobRef : BlobRef) : Prop :=
  NamesNew fs0 fs (ds.blobFileName blobRef) ∧
    (partition = ds.DefaultPartition ∨ NamesNew fs0 fs (ds.partitionBlobFileName partition blobRef))

/-- What any step does to the store: no blob name goes away, and no file older than the calls
is written. -/
structure Persists (fs fs' : Store) : Prop where
  newOrKept : ∀ q file, fs'.names.lookup q = some file →
    fs.names.lookup q = some file ∨ fs0.next ≤ file
  stay : ∀ blobRef q, NamesBlob ds blobRef q → fs.names.lookup q ≠ none →
    fs'.names.lookup q ≠ none
  next_mono : fs.next ≤ fs'.next
  data_old : ∀ file < fs0.next, fs'.data file = fs.data file

def StepLines (fs fs' : Store) (blobRef : BlobRef) (lines : List Entry) : Prop :=
  (lines.filterMap Entry.linked = [] ∧ lines.filterMap Entry.notice = []) ∨
    (∃ partition, lines.filterMap Entry.linked = [ds.partitionBlobFileName partition blobRef] ∧
      lines.filterMap Entry.notice = [] ∧
      fs.names.lookup (ds.partitionBlobFileName partition blobRef) = none ∧
      fs'.names.lookup (ds.partitionBlobFileName partition blobRef) ≠ none) ∨
    (∃ partition, lines.filterMap Entry.linked = [] ∧
      lines.filterMap Entry.notice = [(partition, blobRef)] ∧ Backed ds fs0 fs' partition blobRef)

/-- The names one step of call `c` changes, and what becomes of the temp name it lets go of. -/
structure Touches (c : Call) (pc : Pc) (fs fs' : Store) (lines : List Entry) : Prop where
  changed : ∀ q, fs'.names.lookup q ≠ fs.names.lookup q →
    q ∈ c.blobNames ds ∨ pc.holding = some q ∨
      (fs'.names.lookup q = none ∧ fs0.names.lookup q = none)
  released : ∀ q, c.pc.holding = some q → pc.holding ≠ some q →
    fs'.names.lookup q = none ∨ ∃ e ∈ lines, e.op = .Remove q ∧ e.err ≠ none

/-- The invariant of any run of any calls, whatever fails. -/
structure Landed (s : Sys) : Prop where
  landed : ∀ (j : Nat) (c : Call), s.calls[j]? = some c →
    LandedAt ds fs0 s.store s.record j c.blobRef c.mirrorPartitions c.pc
  kept : ∀ blobRef q, NamesBlob ds blobRef q → fs0.names.lookup q ≠ none →
    s.store.names.lookup q ≠ none
  linked : ∀ q ∈ s.record.filterMap Entry.linked,
    (∃ partition blobRef, q = ds.partitionBlobFileName partition blobRef) ∧
      fs0.names.lookup q = none ∧ s.store.names.lookup q ≠ none
  linked_nodup : (s.record.filterMap Entry.linked).Nodup
  noticed : ∀ n ∈ s.record.filterMap Entry.notice, Backed ds fs0 s.store n.1 n.2
  /-- A name whose entry changed is a blob name of a call, a temp name a call holds, or a name
  absent at the start whose `os.Remove` failed. -/
  frame : ∀ q, s.store.names.lookup q ≠ fs0.names.lookup q →
    (∃ c ∈ s.calls, q ∈ c.blobNames ds) ∨ (∃ j, Holds s.calls j q) ∨
      (fs0.names.lookup q = none ∧ ∃ e ∈ s.record, e.op = .Remove q ∧ e.err ≠ none)
  data_frame : ∀ file < fs0.next, s.store.data file = fs0.data file
  next_le : fs0.next ≤ s.store.next

/-- The name holds a file made after the calls began, with bytes that match the blob's digest
as long as no call has failed after its `Rename`. -/
def Stored (s : Sys) (blobRef : BlobRef) (q : Path) : Prop :=
  NamesNew fs0 s.store q ∧
    (NoFailedCommit s →
      ∃ bytes, s.store.contents q = some bytes ∧ ds.HashMatches blobRef bytes = true)

variable {ds fs0}

/-! ## The names under each step -/

theorem persists_self (fs : Store) : Persists ds fs0 fs fs :=
  ⟨fun _ _ found => .inl found, fun _ _ _ present => present, le_refl _, fun _ _ => rfl⟩

theorem persists_write (fs : Store) {file : Inode} (bytes : List UInt8) (new : fs0.next ≤ file) :
    Persists ds fs0 fs (fs.write file bytes) :=
  ⟨fun _ _ found => .inl found, fun _ _ _ present => present, le_refl _,
    fun _ below => Function.update_noteq (lt_of_lt_of_le below new).ne _ _⟩

theorem persists_create {fs : Store} (p : Path) (next_le : fs0.next ≤ fs.next) :
    Persists ds fs0 fs (fs.create p) := by
  refine ⟨fun q file found => ?_, fun _ q _ present => ?_, Nat.le_succ _,
    fun _ below => Function.update_noteq (lt_of_lt_of_le below next_le).ne _ _⟩
  · rw [Store.lookup_create] at found
    split at found
    · exact .inr (Option.some.inj found ▸ next_le)
    · exact .inl found
  · rw [Store.lookup_create]
    split
    · exact Option.some_ne_none _
    · exact present

theorem FreshTemp.ne_of_namesBlob {fs : Store} {blobRef other : BlobRef} {temp q : Path}
    (fresh : FreshTemp ds fs0 fs blobRef temp) (named : NamesBlob ds other q) : q ≠ temp := by
  rintro rfl
  obtain ⟨suffix, rfl⟩ := fresh.1
  exact tempFileName_not_namesBlob blobRef suffix other named

theorem persists_rename {fs fs' : Store} {blobRef : BlobRef} {temp new : Path}
    (fresh : FreshTemp ds fs0 fs blobRef temp) (renamed : fs.rename temp new = .ok fs') :
    Persists ds fs0 fs fs' := by
  obtain ⟨file, found, sameData, sameNext, names⟩ := Store.rename_ok renamed
  refine ⟨fun q file' found' => ?_, fun _ q named present => ?_, sameNext.ge,
    fun file _ => congrFun sameData file⟩
  · rw [names] at found'
    split at found'
    · exact .inr (Option.some.inj found' ▸ fresh.2.2 file found)
    · split at found'
      · cases found'
      · exact .inl found'
  · rw [names, if_neg (fresh.ne_of_namesBlob named)]
    split
    · exact Option.some_ne_none _
    · exact present

theorem persists_link {fs fs' : Store} {old new : Path} (oldNew : NamesNew fs0 fs old)
    (linked : fs.link old new = .ok fs') : Persists ds fs0 fs fs' := by
  obtain ⟨file, found, fresh⟩ := oldNew
  obtain ⟨file', found', -, sameData, sameNext, names⟩ := Store.link_ok linked
  obtain rfl : file = file' := Option.some.inj (found.symm.trans found')
  refine ⟨fun q file'' found'' => ?_, fun _ q _ present => ?_, sameNext.ge,
    fun file _ => congrFun sameData file⟩
  · rw [names] at found''
    split at found''
    · exact .inr (Option.some.inj found'' ▸ fresh)
    · exact .inl found''
  · rw [names]
    split
    · exact Option.some_ne_none _
    · exact present

theorem persists_remove {fs fs' : Store} {blobRef : BlobRef} {temp : Path}
    (fresh : FreshTemp ds fs0 fs blobRef temp) (removed : fs.remove temp = .ok fs') :
    Persists ds fs0 fs fs' := by
  obtain ⟨-, sameData, sameNext, names⟩ := Store.remove_ok removed
  refine ⟨fun q file found => ?_, fun _ q named present => ?_, sameNext.ge,
    fun file _ => congrFun sameData file⟩
  · rw [names] at found
    split at found
    · cases found
    · exact .inl found
  · rwa [names, if_neg (fresh.ne_of_namesBlob named)]

theorem NamesNew.keep {fs fs' : Store} {blobRef : BlobRef} {q : Path} (named : NamesNew fs0 fs q)
    (blobName : NamesBlob ds blobRef q) (persists : Persists ds fs0 fs fs') :
    NamesNew fs0 fs' q := by
  obtain ⟨file, found, fresh⟩ := named
  obtain ⟨file', found'⟩ :=
    Option.ne_none_iff_exists'.mp (persists.stay blobRef q blobName (by simp [found]))
  refine ⟨file', found', (persists.newOrKept q file' found').elim (fun same => ?_) id⟩
  rw [found] at same
  exact Option.some.inj same ▸ fresh

theorem FreshTemp.keep {fs fs' : Store} {blobRef : BlobRef} {temp : Path}
    (fresh : FreshTemp ds fs0 fs blobRef temp) (persists : Persists ds fs0 fs fs') :
    FreshTemp ds fs0 fs' blobRef temp :=
  ⟨fresh.1, fresh.2.1,
    fun file found => (persists.newOrKept temp file found).elim (fresh.2.2 file) id⟩

theorem MirrorLinked.keep {fs fs' : Store} {record : List Entry} {j : Nat} {blobRef : BlobRef}
    {partition : Partition} (linked : MirrorLinked ds fs0 fs record j blobRef partition)
    (persists : Persists ds fs0 fs fs') (more : List Entry) :
    MirrorLinked ds fs0 fs' (record ++ more) j blobRef partition :=
  have ⟨named, e, mem, call, link⟩ := linked
  ⟨named.keep (.inr ⟨partition, rfl⟩) persists, e, List.mem_append_left more mem, call, link⟩

theorem Backed.keep {fs fs' : Store} {partition : Partition} {blobRef : BlobRef}
    (backed : Backed ds fs0 fs partition blobRef) (persists : Persists ds fs0 fs fs') :
    Backed ds fs0 fs' partition blobRef :=
  have ⟨canonical, mirror⟩ := backed
  ⟨canonical.keep (.inl rfl) persists,
    mirror.imp_right fun named => named.keep (.inr ⟨partition, rfl⟩) persists⟩

theorem LandedAt.keep {fs fs' : Store} {record : List Entry} {j : Nat} {blobRef : BlobRef}
    {mirrors : List Partition} {pc : Pc} (landed : LandedAt ds fs0 fs record j blobRef mirrors pc)
    (persists : Persists ds fs0 fs fs') (more : List Entry) :
    LandedAt ds fs0 fs' (record ++ more) j blobRef mirrors pc := by
  have canonical := fun named : NamesNew fs0 fs (ds.blobFileName blobRef) =>
    named.keep (.inl rfl) persists
  have mirrored := fun p (linked : MirrorLinked ds fs0 fs record j blobRef p) =>
    linked.keep persists more
  cases pc with
  | start | tempFile => trivial
  | copy => exact ⟨landed.1.keep persists, landed.2⟩
  | sync | close | rename | cleanup => exact FreshTemp.keep landed persists
  | lstat => exact ⟨landed.1.keep persists, canonical landed.2⟩
  | mirror | link =>
      obtain ⟨fresh, named, pre, split, linked⟩ := landed
      exact ⟨fresh.keep persists, canonical named, pre, split,
        fun p mem => mirrored p (linked p mem)⟩
  | notify =>
      obtain ⟨named, linked, rest⟩ := landed
      exact ⟨canonical named, fun p mem => mirrored p (linked p mem), rest⟩
  | done result =>
      cases result with
      | error => trivial
      | ok =>
          obtain ⟨named, linked⟩ := landed
          exact ⟨canonical named, fun p mem => mirrored p (linked p mem)⟩

theorem LandedAt.freshTemp_of_holding {fs : Store} {record : List Entry} {j : Nat}
    {blobRef : BlobRef} {mirrors : List Partition} {pc : Pc} {temp : Path}
    (landed : LandedAt ds fs0 fs record j blobRef mirrors pc) (holding : pc.holding = some temp) :
    FreshTemp ds fs0 fs blobRef temp := by
  cases pc <;> simp only [Pc.holding, reduceCtorEq, Option.some.injEq] at holding <;> subst holding
  case copy => exact landed.1
  all_goals exact landed

theorem freshTemp_create {fs : Store} (blobRef : BlobRef) (suffix : String)
    (absent : fs0.names.lookup (ds.tempFileName blobRef suffix) = none)
    (next_le : fs0.next ≤ fs.next) :
    FreshTemp ds fs0 (fs.create (ds.tempFileName blobRef suffix)) blobRef
      (ds.tempFileName blobRef suffix) :=
  ⟨⟨suffix, rfl⟩, absent, fun file found => by
    rw [Store.lookup_create, if_pos rfl] at found
    exact Option.some.inj found ▸ next_le⟩

theorem touches_of_names {c : Call} {pc : Pc} {fs fs' : Store} {lines : List Entry}
    (names : fs'.names = fs.names) (holding : pc.holding = c.pc.holding ∨ c.pc.holding = none) :
    Touches ds fs0 c pc fs fs' lines := by
  refine ⟨fun q changed => absurd (by rw [names]) changed, fun q held released => ?_⟩
  rcases holding with same | none
  · exact absurd (same.trans held) released
  · rw [none] at held
    cases held

/-- One step of call `j`, whatever its outcome: what it does to the store, what the call has
made sure of at its next counter, what its record lines add, and which names it touches. -/
theorem LandedAt.step {fs fs' : Store} {record : List Entry} {j : Nat} {c : Call} {o : Outcome}
    {pc : Pc} {ops : List (Op × Option Errno)}
    (landed : LandedAt ds fs0 fs record j c.blobRef c.mirrorPartitions c.pc)
    (next_le : fs0.next ≤ fs.next)
    (absentBefore : ∀ suffix, fs.names.lookup (ds.tempFileName c.blobRef suffix) = none →
      fs0.names.lookup (ds.tempFileName c.blobRef suffix) = none)
    (stepped : c.step ds fs o = some (pc, fs', ops)) :
    Persists ds fs0 fs fs' ∧
      LandedAt ds fs0 fs' (record ++ stamp j ops) j c.blobRef c.mirrorPartitions pc ∧
      StepLines ds fs0 fs fs' c.blobRef (stamp j ops) ∧
      Touches ds fs0 c pc fs fs' (stamp j ops) := by
  obtain ⟨blobRef, source, partitions, pc₀⟩ := c
  dsimp only at landed absentBefore ⊢
  have quiet : ∀ {pc : Pc} {ops : List (Op × Option Errno)},
      pc.holding = pc₀.holding ∨ pc₀.holding = none →
      LandedAt ds fs0 fs (record ++ stamp j ops) j blobRef partitions pc →
      (stamp j ops).filterMap Entry.linked = [] → (stamp j ops).filterMap Entry.notice = [] →
      Persists ds fs0 fs fs ∧ LandedAt ds fs0 fs (record ++ stamp j ops) j blobRef partitions pc ∧
        StepLines ds fs0 fs fs blobRef (stamp j ops) ∧
        Touches ds fs0 ⟨blobRef, source, partitions, pc₀⟩ pc fs fs (stamp j ops) :=
    fun holding here linked notice =>
      ⟨persists_self fs, here, .inl ⟨linked, notice⟩, touches_of_names rfl holding⟩
  cases pc₀ with
  | start =>
      cases o <;> simp only [Call.step, Call.mkdirAll, reduceCtorEq] at stepped <;>
        obtain ⟨rfl, rfl, rfl⟩ := Prod.mk.inj (Option.some.inj stepped) <;>
        exact quiet (.inr rfl) trivial rfl rfl
  | tempFile =>
      cases o with
      | named suffix =>
          simp only [Call.step, Call.tempFile] at stepped
          split at stepped
          · cases stepped
          · rename_i absent
            obtain ⟨rfl, rfl, rfl⟩ := Prod.mk.inj (Option.some.inj stepped)
            refine ⟨persists_create _ next_le,
              ⟨freshTemp_create blobRef suffix (absentBefore suffix absent) next_le, next_le⟩,
              .inl ⟨rfl, rfl⟩, fun q changed => .inr (.inl ?_), fun q held => by cases held⟩
            rw [Store.lookup_create] at changed
            split at changed
            · subst_vars; rfl
            · exact absurd rfl changed
      | ok => cases stepped
      | failed =>
          obtain ⟨rfl, rfl, rfl⟩ := Prod.mk.inj (Option.some.inj stepped)
          exact quiet (.inr rfl) trivial rfl rfl
  | copy temp file reads hashed written =>
      obtain ⟨fresh, newFile⟩ := landed
      cases reads with
      | cons buf reads =>
          cases o with
          | ok =>
              obtain ⟨rfl, rfl, rfl⟩ := Prod.mk.inj (Option.some.inj stepped)
              have persists : Persists ds fs0 fs (fs.write file buf) :=
                persists_write fs buf newFile
              exact ⟨persists, ⟨fresh.keep persists, newFile⟩, .inl ⟨rfl, rfl⟩,
                touches_of_names rfl (.inl rfl)⟩
          | failed e through =>
              obtain ⟨rfl, rfl, rfl⟩ := Prod.mk.inj (Option.some.inj stepped)
              have persists : Persists ds fs0 fs (fs.write file (buf.take through)) :=
                persists_write fs _ newFile
              exact ⟨persists, fresh.keep persists, .inl ⟨rfl, rfl⟩,
                touches_of_names rfl (.inl rfl)⟩
          | named => cases stepped
      | nil =>
          cases o with
          | ok =>
              simp only [Call.step, Call.copy] at stepped
              split at stepped <;>
                obtain ⟨rfl, rfl, rfl⟩ := Prod.mk.inj (Option.some.inj stepped) <;>
                exact quiet (.inl rfl) fresh rfl rfl
          | named | failed => cases stepped
  | sync temp hashed written =>
      have fresh : FreshTemp ds fs0 fs blobRef temp := landed
      cases o with
      | ok | failed =>
          obtain ⟨rfl, rfl, rfl⟩ := Prod.mk.inj (Option.some.inj stepped)
          exact quiet (.inl rfl) fresh rfl rfl
      | named => cases stepped
  | close temp hashed written =>
      have fresh : FreshTemp ds fs0 fs blobRef temp := landed
      cases o with
      | ok =>
          simp only [Call.step, Call.close] at stepped
          split at stepped <;> obtain ⟨rfl, rfl, rfl⟩ := Prod.mk.inj (Option.some.inj stepped) <;>
            exact quiet (.inl rfl) fresh rfl rfl
      | failed =>
          obtain ⟨rfl, rfl, rfl⟩ := Prod.mk.inj (Option.some.inj stepped)
          exact quiet (.inl rfl) fresh rfl rfl
      | named => cases stepped
  | rename temp written =>
      have fresh : FreshTemp ds fs0 fs blobRef temp := landed
      cases o with
      | ok =>
          simp only [Call.step, Call.rename] at stepped
          split at stepped <;> obtain ⟨rfl, rfl, rfl⟩ := Prod.mk.inj (Option.some.inj stepped)
          · rename_i renamedStore renamed
            have persists := persists_rename fresh renamed
            obtain ⟨file, found, -, -, names⟩ := Store.rename_ok renamed
            have apart : temp ≠ ds.blobFileName blobRef :=
              (fresh.ne_of_namesBlob (.inl rfl : NamesBlob ds blobRef _)).symm
            refine ⟨persists, ⟨fresh.keep persists, file, by simp [names], fresh.2.2 file found⟩,
              .inl ⟨rfl, rfl⟩, fun q changed => ?_, fun q held _ => .inl ?_⟩
            · rw [names] at changed
              split at changed
              · exact .inl (List.mem_cons.mpr (.inl ‹_›))
              · split at changed
                · subst_vars
                  exact .inr (.inr ⟨by simp [names, apart], fresh.2.1⟩)
                · exact absurd rfl changed
            · obtain rfl := Option.some.inj held
              simp [names, apart]
          · exact quiet (.inl rfl) fresh rfl rfl
      | failed =>
          obtain ⟨rfl, rfl, rfl⟩ := Prod.mk.inj (Option.some.inj stepped)
          exact quiet (.inl rfl) fresh rfl rfl
      | named => cases stepped
  | lstat temp written =>
      obtain ⟨fresh, canonical⟩ := landed
      cases o with
      | ok =>
          simp only [Call.step, Call.lstat] at stepped
          split at stepped
          · split at stepped <;> obtain ⟨rfl, rfl, rfl⟩ := Prod.mk.inj (Option.some.inj stepped)
            · exact quiet (.inr rfl) fresh rfl rfl
            · exact quiet (.inr rfl)
                ⟨fresh, canonical, [], rfl, fun p mem => absurd mem (List.not_mem_nil p)⟩ rfl rfl
          · obtain ⟨rfl, rfl, rfl⟩ := Prod.mk.inj (Option.some.inj stepped)
            exact quiet (.inr rfl) fresh rfl rfl
      | failed =>
          obtain ⟨rfl, rfl, rfl⟩ := Prod.mk.inj (Option.some.inj stepped)
          exact quiet (.inr rfl) fresh rfl rfl
      | named => cases stepped
  | mirror temp size rest =>
      obtain ⟨fresh, canonical, pre, split, linked⟩ := landed
      have linked' := fun p mem => (linked p mem).keep (persists_self fs) (stamp j ops)
      cases rest <;> cases o
      case nil.ok =>
        obtain ⟨rfl, rfl, rfl⟩ := Prod.mk.inj (Option.some.inj stepped)
        refine quiet (.inr rfl) ⟨canonical, fun p mem => linked' p ?_, fun p mem => ?_⟩ rfl rfl
        · simpa [split] using mem
        · simpa using mem
      case cons.ok =>
        obtain ⟨rfl, rfl, rfl⟩ := Prod.mk.inj (Option.some.inj stepped)
        exact quiet (.inr rfl) ⟨fresh, canonical, pre, split, linked'⟩ rfl rfl
      case cons.failed =>
        obtain ⟨rfl, rfl, rfl⟩ := Prod.mk.inj (Option.some.inj stepped)
        exact quiet (.inr rfl) fresh rfl rfl
      all_goals cases stepped
  | link temp size partition rest =>
      obtain ⟨fresh, canonical, pre, split, linked⟩ := landed
      cases o with
      | ok =>
          simp only [Call.step, Call.link] at stepped
          split at stepped <;> obtain ⟨rfl, rfl, rfl⟩ := Prod.mk.inj (Option.some.inj stepped)
          · rename_i linkedStore made
            have persists : Persists ds fs0 fs fs' := persists_link canonical made
            obtain ⟨file, found, absent, -, -, names⟩ := Store.link_ok made
            obtain ⟨file', found', after⟩ := canonical
            obtain rfl : file' = file := Option.some.inj (found'.symm.trans found)
            refine ⟨persists, ⟨fresh.keep persists, ⟨file', by simp [names, found'], after⟩,
              pre ++ [partition], by simp [split], fun p mem => ?_⟩,
              .inr (.inl ⟨partition, rfl, rfl, absent, by simp [names]⟩),
              fun q changed => .inl ?_, fun q held => by cases held⟩
            · rcases List.mem_append.mp mem with before | here
              · exact (linked p before).keep persists _
              · rw [List.mem_singleton.mp here]
                exact ⟨⟨file', by simp [names], after⟩, _, List.mem_append_right _
                  (List.mem_singleton_self _), rfl, rfl⟩
            · rw [names] at changed
              split at changed
              · subst_vars
                exact List.mem_cons_of_mem _ (List.mem_map_of_mem _ (by simp))
              · exact absurd rfl changed
          · exact quiet (.inr rfl) fresh rfl rfl
      | failed =>
          obtain ⟨rfl, rfl, rfl⟩ := Prod.mk.inj (Option.some.inj stepped)
          exact quiet (.inr rfl) fresh rfl rfl
      | named => cases stepped
  | notify blobGot rest =>
      obtain ⟨canonical, linked, toTell⟩ := landed
      have linked' := fun p mem => (linked p mem).keep (persists_self fs) (stamp j ops)
      cases rest <;> cases o
      case nil.ok =>
        obtain ⟨rfl, rfl, rfl⟩ := Prod.mk.inj (Option.some.inj stepped)
        exact quiet (.inr rfl) ⟨canonical, linked'⟩ rfl rfl
      case cons.ok partition rest =>
        obtain ⟨rfl, rfl, rfl⟩ := Prod.mk.inj (Option.some.inj stepped)
        refine ⟨persists_self fs, ⟨canonical, linked', fun p mem => toTell p (.tail _ mem)⟩,
          .inr (.inr ⟨partition, rfl, rfl, canonical, ?_⟩), touches_of_names rfl (.inr rfl)⟩
        exact (toTell partition (.head _)).imp_right fun mem => (linked partition mem).1
      all_goals cases stepped
  | cleanup temp err =>
      have fresh : FreshTemp ds fs0 fs blobRef temp := landed
      have failedRemove : ∀ e : Errno,
          Touches ds fs0 ⟨blobRef, source, partitions, .cleanup temp err⟩ (.done (.error err)) fs fs
            (stamp j [(.Remove temp, some e)]) :=
        fun e => ⟨fun q changed => absurd rfl changed, fun q held _ =>
          .inr ⟨_, List.mem_singleton_self _, by rw [Option.some.inj held], Option.some_ne_none e⟩⟩
      cases o with
      | ok =>
          simp only [Call.step, Call.cleanup] at stepped
          split at stepped <;> obtain ⟨rfl, rfl, rfl⟩ := Prod.mk.inj (Option.some.inj stepped)
          · rename_i removedStore removed
            obtain ⟨-, -, -, names⟩ := Store.remove_ok removed
            refine ⟨persists_remove fresh removed, trivial, .inl ⟨rfl, rfl⟩,
              fun q changed => .inr (.inr ?_), fun q held _ => .inl ?_⟩
            · rw [names] at changed
              split at changed
              · subst_vars
                exact ⟨by simp [names], fresh.2.1⟩
              · exact absurd rfl changed
            · obtain rfl := Option.some.inj held
              simp [names]
          · exact ⟨persists_self fs, trivial, .inl ⟨rfl, rfl⟩, failedRemove _⟩
      | failed e =>
          obtain ⟨rfl, rfl, rfl⟩ := Prod.mk.inj (Option.some.inj stepped)
          exact ⟨persists_self fs, trivial, .inl ⟨rfl, rfl⟩, failedRemove e⟩
      | named => cases stepped
  | done => cases stepped

/-! ## Over whole runs -/

theorem Landed.held_absent {s : Sys} (landed : Landed ds fs0 s) {j : Nat} {q : Path}
    (held : Holds s.calls j q) : fs0.names.lookup q = none :=
  have ⟨c, found, holding⟩ := held
  ((landed.landed j c found).freshTemp_of_holding holding).2.1

theorem Landed.temp_absent {s : Sys} (landed : Landed ds fs0 s) {blobRef : BlobRef}
    {suffix : String} (absent : s.store.names.lookup (ds.tempFileName blobRef suffix) = none) :
    fs0.names.lookup (ds.tempFileName blobRef suffix) = none := by
  by_contra there
  rcases landed.frame _ (by rw [absent]; exact Ne.symm there) with
    ⟨c, -, named⟩ | ⟨j, held⟩ | ⟨absent0, -⟩
  · exact tempFileName_not_namesBlob blobRef suffix c.blobRef (namesBlob_of_mem_blobNames named)
  · exact there (landed.held_absent held)
  · exact there absent0

theorem Landed.step {s s' : Sys} {e : Event} (landed : Landed ds fs0 s)
    (stepped : s.step ds e = some s') : Landed ds fs0 s' := by
  obtain ⟨c, pc, ops, found, callStep, calls, record⟩ := Sys.step_eq_some ds stepped
  obtain ⟨persists, here, lines, touches⟩ := (landed.landed _ c found).step landed.next_le
    (fun _ absent => landed.temp_absent absent) callStep
  obtain ⟨store, calls', record'⟩ := s'
  dsimp only at calls record callStep persists here lines touches
  subst calls record
  refine ⟨forall_set found here fun j c' _ found' => (landed.landed j c' found').keep persists _,
    fun blobRef q named present =>
      persists.stay blobRef q named (landed.kept blobRef q named present),
    fun q mem => ?_, ?_, fun n mem => ?_, fun q changed => ?_,
    fun file below => (persists.data_old file below).trans (landed.data_frame file below),
    le_trans landed.next_le persists.next_mono⟩
  · rw [List.filterMap_append] at mem
    rcases List.mem_append.mp mem with before | new
    · obtain ⟨⟨partition, blobRef, rfl⟩, fresh, present⟩ := landed.linked _ before
      exact ⟨⟨partition, blobRef, rfl⟩, fresh,
        persists.stay blobRef _ (.inr ⟨partition, rfl⟩) present⟩
    · rcases lines with ⟨quiet, -⟩ | ⟨partition, made, -, absent, present⟩ | ⟨_, quiet, -⟩
      · rw [quiet] at new; cases new
      · rw [made, List.mem_singleton] at new
        subst new
        refine ⟨⟨partition, c.blobRef, rfl⟩, ?_, present⟩
        by_contra there
        exact landed.kept c.blobRef _ (.inr ⟨partition, rfl⟩) there absent
      · rw [quiet] at new; cases new
  · rw [List.filterMap_append, List.nodup_append]
    rcases lines with ⟨quiet, -⟩ | ⟨partition, made, -, absent, -⟩ | ⟨_, quiet, -⟩
    · rw [quiet]; exact ⟨landed.linked_nodup, List.nodup_nil, List.disjoint_nil_right _⟩
    · rw [made]
      exact ⟨landed.linked_nodup, List.nodup_singleton _, fun q before new =>
        (landed.linked q before).2.2 (List.mem_singleton.mp new ▸ absent)⟩
    · rw [quiet]; exact ⟨landed.linked_nodup, List.nodup_nil, List.disjoint_nil_right _⟩
  · rw [List.filterMap_append] at mem
    rcases List.mem_append.mp mem with before | new
    · exact (landed.noticed n before).keep persists
    · rcases lines with ⟨-, quiet⟩ | ⟨_, -, quiet, -⟩ | ⟨_, -, made, backed⟩
      · rw [quiet] at new; cases new
      · rw [quiet] at new; cases new
      · rw [made, List.mem_singleton] at new
        subst new
        exact backed
  · by_cases same : store.names.lookup q = s.store.names.lookup q
    · rw [same] at changed
      rcases landed.frame q changed with named | ⟨k, held⟩ | ⟨absent0, removal, member, rest⟩
      · exact .inl (blobNames_of_restart (Sys.restart_set found).symm named)
      · by_cases still : Holds (s.calls.set e.call { c with pc }) k q
        · exact .inr (.inl ⟨k, still⟩)
        · have absent0 := landed.held_absent held
          rw [holds_set found] at still
          split at still
          · subst_vars
            obtain ⟨c', found', holding⟩ := held
            rw [found] at found'
            cases found'
            rcases touches.released q holding still with gone | ⟨removal, member, rest⟩
            · exact absurd ((same.symm.trans gone).trans absent0.symm) changed
            · exact .inr (.inr ⟨absent0, removal, List.mem_append_right _ member, rest⟩)
          · exact absurd held still
      · exact .inr (.inr ⟨absent0, removal, List.mem_append_left _ member, rest⟩)
    · rcases touches.changed q same with named | holding | ⟨gone, absent0⟩
      · exact .inl ⟨_, List.getElem?_mem
          (List.getElem?_set_self (List.getElem?_eq_some_iff.mp found).1), named⟩
      · exact .inr (.inl ⟨e.call, by rw [holds_set found, if_pos rfl]; exact holding⟩)
      · exact absurd (gone.trans absent0.symm) changed

theorem Landed.run {s s' : Sys} {events : List Event} (landed : Landed ds fs0 s)
    (ran : s.run ds events = some s') : Landed ds fs0 s' := by
  induction events generalizing s with
  | nil => exact Option.some.inj ran ▸ landed
  | cons e events ih =>
      obtain ⟨s₁, stepped, ran⟩ := Option.bind_eq_some.mp ran
      exact ih (landed.step stepped) ran

theorem landed_init {calls : List Call} (fresh : ∀ c ∈ calls, c.pc = .start) :
    Landed ds fs0 (Sys.init fs0 calls) := by
  refine ⟨fun j c found => ?_, fun _ _ _ present => present, fun q mem => (by cases mem),
    List.nodup_nil, fun n mem => (by cases mem), fun q changed => absurd rfl changed,
    fun _ _ => rfl, le_refl _⟩
  rw [fresh c (List.getElem?_mem found)]
  trivial

theorem stored_of_namesNew {calls : List Call} (fresh : ∀ c ∈ calls, c.pc = .start)
    {events : List Event} {s : Sys} (ran : (Sys.init fs0 calls).run ds events = some s)
    {blobRef : BlobRef} {q : Path} (named : NamesBlob ds blobRef q)
    (new : NamesNew fs0 s.store q) : Stored ds fs0 s blobRef q := by
  refine ⟨new, fun committed => ?_⟩
  obtain ⟨file, found, after⟩ := new
  rcases ((@safe_init ds fs0 calls fresh).run ran committed).integrity blobRef q named with
    same | ⟨file', found', -, hashOk⟩
  · rw [found] at same
    exact absurd (fs0.lookup_lt same.symm) (not_lt.mpr after)
  · exact ⟨_, by simp [Store.contents, found'], hashOk⟩

end Landed

/-- In any run, a blob a call returned or a hub was told of is stored under its canonical and
mirror names, with verified bytes as long as no call failed after its `Rename`. -/
theorem receiveBlob_received_blobs_stay_stored (ds : DiskStorage) (fs0 : Store)
    (calls : List Call) (fresh : ∀ c ∈ calls, c.pc = .start) {events : List Event} {s : Sys}
    (ran : (Sys.init fs0 calls).run ds events = some s) :
    (∀ (j : Nat) (c : Call) (got : SizedBlobRef), s.calls[j]? = some c →
      c.pc = .done (.ok got) →
        Stored ds fs0 s c.blobRef (ds.blobFileName c.blobRef) ∧
          ∀ partition ∈ c.mirrorPartitions,
            Stored ds fs0 s c.blobRef (ds.partitionBlobFileName partition c.blobRef)) ∧
    ∀ partition blobRef, (partition, blobRef) ∈ s.record.filterMap Entry.notice →
      Stored ds fs0 s blobRef (ds.blobFileName blobRef) ∧
        (partition = ds.DefaultPartition ∨
          Stored ds fs0 s blobRef (ds.partitionBlobFileName partition blobRef)) := by
  have landed := (@landed_init ds fs0 calls fresh).run ran
  refine ⟨fun j c got found returned => ?_, fun partition blobRef noticed => ?_⟩
  · have done := landed.landed j c found
    rw [returned] at done
    exact ⟨stored_of_namesNew fresh ran (.inl rfl) done.1, fun partition mem =>
      stored_of_namesNew fresh ran (.inr ⟨partition, rfl⟩) (done.2 partition mem).1⟩
  · obtain ⟨canonical, mirror⟩ := landed.noticed _ noticed
    exact ⟨stored_of_namesNew fresh ran (.inl rfl) canonical,
      mirror.imp_right (stored_of_namesNew fresh ran (.inr ⟨partition, rfl⟩))⟩

/-- In any run no name is linked twice, and of the calls that mirror one blob to one partition
at most one succeeds. -/
theorem receiveBlob_mirror_names_linked_once (ds : DiskStorage) (fs0 : Store)
    (calls : List Call) (fresh : ∀ c ∈ calls, c.pc = .start) {events : List Event} {s : Sys}
    (ran : (Sys.init fs0 calls).run ds events = some s) :
    (s.record.filterMap Entry.linked).Nodup ∧
      (∀ (j : Nat) (c : Call) (got : SizedBlobRef), s.calls[j]? = some c →
        c.pc = .done (.ok got) → ∀ partition ∈ c.mirrorPartitions,
          fs0.names.lookup (ds.partitionBlobFileName partition c.blobRef) = none) ∧
      ∀ (j k : Nat) (cj ck : Call) (gotJ gotK : SizedBlobRef) (partition : Partition),
        s.calls[j]? = some cj → s.calls[k]? = some ck → cj.pc = .done (.ok gotJ) →
        ck.pc = .done (.ok gotK) → cj.blobRef = ck.blobRef → partition ∈ cj.mirrorPartitions →
        partition ∈ ck.mirrorPartitions → j = k := by
  have landed := (@landed_init ds fs0 calls fresh).run ran
  have linkedBy : ∀ (j : Nat) (c : Call) (got : SizedBlobRef), s.calls[j]? = some c →
      c.pc = .done (.ok got) → ∀ partition ∈ c.mirrorPartitions,
        ∃ e ∈ s.record, e.call = j ∧
          e.linked = some (ds.partitionBlobFileName partition c.blobRef) := by
    intro j c got found returned partition mem
    have done := landed.landed j c found
    rw [returned] at done
    exact (done.2 partition mem).2
  refine ⟨landed.linked_nodup, fun j c got found returned partition mem => ?_,
    fun j k cj ck gotJ gotK partition foundJ foundK returnedJ returnedK same memJ memK => ?_⟩
  · obtain ⟨e, member, -, link⟩ := linkedBy j c got found returned partition mem
    exact (landed.linked _ (List.mem_filterMap.mpr ⟨e, member, link⟩)).2.1
  · obtain ⟨e, memberJ, rfl, linkJ⟩ := linkedBy j cj gotJ foundJ returnedJ partition memJ
    obtain ⟨e', memberK, rfl, linkK⟩ := linkedBy k ck gotK foundK returnedK partition memK
    rw [same] at linkJ
    exact congrArg Entry.call
      (eq_of_filterMap_nodup landed.linked_nodup memberJ memberK linkJ linkK)

/-- Once every call has returned, only blob names and temp names whose `os.Remove` failed have
changed; every other name holds the bytes it held. -/
theorem receiveBlob_changes_only_blob_names (ds : DiskStorage) (fs0 : Store) (calls : List Call)
    (fresh : ∀ c ∈ calls, c.pc = .start) {events : List Event} {s : Sys}
    (ran : (Sys.init fs0 calls).run ds events = some s)
    (returned : ∀ c ∈ s.calls, ∃ result, c.pc = .done result) :
    ∀ q, (s.store.names.lookup q ≠ fs0.names.lookup q →
        (∃ c ∈ calls, q ∈ c.blobNames ds) ∨
          fs0.names.lookup q = none ∧ ∃ e ∈ s.record, e.op = .Remove q ∧ e.err ≠ none) ∧
      (s.store.names.lookup q = fs0.names.lookup q → s.store.contents q = fs0.contents q) := by
  have landed := (@landed_init ds fs0 calls fresh).run ran
  refine fun q => ⟨fun changed => ?_, fun same => ?_⟩
  · rcases landed.frame q changed with named | ⟨j, c, found, holding⟩ | removed
    · exact .inl (blobNames_of_restart (Sys.restart_calls_run ds ran) named)
    · obtain ⟨result, atDone⟩ := returned c (List.getElem?_mem found)
      rw [atDone] at holding
      cases holding
    · exact .inr removed
  · simp only [Store.contents, same]
    cases named : fs0.names.lookup q with
    | none => rfl
    | some file => simp [landed.data_frame file (fs0.lookup_lt named)]

def mirrorTwiceEvents : List Event :=
  ⟨0, .ok⟩ :: ⟨0, .named "1"⟩ :: List.replicate 13 ⟨0, .ok⟩ ++
    ⟨1, .ok⟩ :: ⟨1, .named "2"⟩ :: List.replicate 10 ⟨1, .ok⟩

def mirrorTwiceCalls : List Call :=
  List.replicate 2 (ReceiveBlob sampleBlob ⟨[[1], [2]], none⟩ ["m"])

def mirrorTwiceRun : Sys :=
  ((Sys.init Store.empty mirrorTwiceCalls).run sampleStorage mirrorTwiceEvents).getD
    (Sys.init Store.empty [])

/-- The first call returns its blob; the second fails at its `os.Link` with `EEXIST`. -/
example : mirrorTwiceRun.calls.map Call.pc =
    [.done (.ok ⟨sampleBlob, 2⟩), .done (.error (.LinkError "link"
      (sampleStorage.blobFileName sampleBlob) (sampleStorage.partitionBlobFileName "m" sampleBlob)
      EEXIST))] := rfl

theorem mirror_twice_first_blob_stored :
    Stored sampleStorage Store.empty mirrorTwiceRun sampleBlob
        (sampleStorage.blobFileName sampleBlob) ∧
      ∀ partition ∈ ["m"], Stored sampleStorage Store.empty mirrorTwiceRun sampleBlob
        (sampleStorage.partitionBlobFileName partition sampleBlob) :=
  (@receiveBlob_received_blobs_stay_stored sampleStorage Store.empty mirrorTwiceCalls
    (by simp [mirrorTwiceCalls, ReceiveBlob]) mirrorTwiceEvents mirrorTwiceRun rfl).1 0
    _ ⟨sampleBlob, 2⟩ rfl rfl

theorem mirror_twice_links_once :
    (mirrorTwiceRun.record.filterMap Entry.linked).Nodup ∧
      ∀ (c₀ c₁ : Call) (got₀ got₁ : SizedBlobRef), mirrorTwiceRun.calls[0]? = some c₀ →
        mirrorTwiceRun.calls[1]? = some c₁ → c₀.pc = .done (.ok got₀) →
        c₁.pc = .done (.ok got₁) → c₀.blobRef = c₁.blobRef → "m" ∈ c₀.mirrorPartitions →
        "m" ∈ c₁.mirrorPartitions → False :=
  have linkedOnce := @receiveBlob_mirror_names_linked_once sampleStorage Store.empty
    mirrorTwiceCalls (by simp [mirrorTwiceCalls, ReceiveBlob]) mirrorTwiceEvents mirrorTwiceRun rfl
  ⟨linkedOnce.1, fun c₀ c₁ got₀ got₁ found₀ found₁ returned₀ returned₁ same mem₀ mem₁ =>
    absurd (linkedOnce.2.2 0 1 c₀ c₁ got₀ got₁ "m" found₀ found₁ returned₀ returned₁ same mem₀
      mem₁) (by decide)⟩

theorem mirror_twice_changes_only_blob_names :
    (mirrorTwiceRun.store.names.lookup (sampleStorage.tempFileName sampleBlob "2") ≠
        Store.empty.names.lookup (sampleStorage.tempFileName sampleBlob "2") →
      (∃ c ∈ mirrorTwiceCalls,
          sampleStorage.tempFileName sampleBlob "2" ∈ c.blobNames sampleStorage) ∨
        Store.empty.names.lookup (sampleStorage.tempFileName sampleBlob "2") = none ∧
          ∃ e ∈ mirrorTwiceRun.record, e.op = .Remove (sampleStorage.tempFileName sampleBlob "2") ∧
            e.err ≠ none) ∧
      (mirrorTwiceRun.store.names.lookup (sampleStorage.tempFileName sampleBlob "2") =
          Store.empty.names.lookup (sampleStorage.tempFileName sampleBlob "2") →
        mirrorTwiceRun.store.contents (sampleStorage.tempFileName sampleBlob "2") =
          Store.empty.contents (sampleStorage.tempFileName sampleBlob "2")) :=
  @receiveBlob_changes_only_blob_names sampleStorage Store.empty mirrorTwiceCalls
    (by simp [mirrorTwiceCalls, ReceiveBlob]) mirrorTwiceEvents mirrorTwiceRun rfl
    (fun c mem => by
      have returned : mirrorTwiceRun.calls.map Call.pc = [.done (.ok _), .done (.error _)] := rfl
      have atDone := List.mem_map_of_mem Call.pc mem
      rw [returned, List.mem_pair] at atDone
      exact atDone.elim (⟨_, ·⟩) (⟨_, ·⟩))
    (sampleStorage.tempFileName sampleBlob "2")

end Camlistore
