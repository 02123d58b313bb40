import Camlistore.Progress

/-! # Concurrent receives of verified blobs

Calls of `ReceiveBlob(blobRef, source, [])` share one store, each streaming the bytes
`bytesOf blobRef`, which match its digest.  When no filesystem call fails none of them reaches
the deferred `os.Remove`: each holds its temp file until its `Rename`, under a name that no other
call holds and that is the file's only name, and from the first `Rename` of a blob on, the blob's
canonical name holds its bytes, so every later `Lstat` of it sees the size its call wrote.
Whatever the interleaving, every call returns `SizedBlobRef{blobRef, len(bytes)}`, each blob's
canonical name holds its bytes, and every other name is as the calls found it.  Receives of one
blob are the case of a single `blobRef`. -/

set_option autoImplicit false

namespace Camlistore

/-- The temp name a call holds from `ioutil.TempFile` on: the one it renames, or removes in its
deferred function. -/
def Pc.holding : Pc → Option Path
  | .copy temp .. | .sync temp .. | .close temp .. | .rename temp .. | .cleanup temp .. => some temp
  | _ => none

def Holds (calls : List Call) (j : Nat) (temp : Path) : Prop :=
  ∃ c, calls[j]? = some c ∧ c.pc.holding = some temp

theorem Holds.name_eq {calls : List Call} {j : Nat} {c : Call} {q temp : Path}
    (held : Holds calls j q) (found : calls[j]? = some c) (holding : c.pc.holding = some temp) :
    q = temp := by
  obtain ⟨c', found', held'⟩ := held
  rw [found] at found'
  cases found'
  exact Option.some.inj (held'.symm.trans holding)

theorem holds_set {calls : List Call} {i j : Nat} {c : Call} {pc : Pc} {temp : Path}
    (found : calls[i]? = some c) :
    Holds (calls.set i { c with pc }) j temp ↔
      if j = i then pc.holding = some temp else Holds calls j temp := by
  have bound : i < calls.length := (List.getElem?_eq_some_iff.mp found).1
  by_cases here : j = i
  · subst here; simp [Holds, bound]
  · simp [Holds, here, List.getElem?_set_ne (Ne.symm here)]

theorem holds_set_same {calls : List Call} {i j : Nat} {c : Call} {pc : Pc} {temp : Path}
    (found : calls[i]? = some c) (same : pc.holding = c.pc.holding) :
    Holds (calls.set i { c with pc }) j temp ↔ Holds calls j temp := by
  rw [holds_set found]
  by_cases here : j = i
  · subst here; simp [Holds, found, same]
  · simp [here]

theorem forall_set {calls : List Call} {i : Nat} {c : Call} {pc : Pc} {P : Nat → Call → Prop}
    (found : calls[i]? = some c) (here : P i { c with pc })
    (others : ∀ j c', j ≠ i → calls[j]? = some c' → P j c') :
    ∀ j c', (calls.set i { c with pc })[j]? = some c' → P j c' := by
  have bound : i < calls.length := (List.getElem?_eq_some_iff.mp found).1
  intro j c' found'
  by_cases same : j = i
  · subst same
    obtain rfl : _ = c' := by simpa [bound] using found'
    exact here
  · exact others j c' same (by rwa [List.getElem?_set_ne (Ne.symm same)] at found')

def Keeps (fs fs' : Store) (q : Path) : Prop :=
  ∀ file, fs.names.lookup q = some file →
    fs'.names.lookup q = some file ∧ fs'.data file = fs.data file

theorem keeps_create {fs : Store} {p : Path} (absent : fs.names.lookup p = none) (q : Path) :
    Keeps fs (fs.create p) q := by
  intro file found
  have other : q ≠ p := by rintro rfl; rw [absent] at found; cases found
  simp [other, found, Function.update_noteq (fs.lookup_lt found).ne]

theorem keeps_write {fs : Store} {file : Inode} (bytes : List UInt8) {q : Path}
    (other : fs.names.lookup q ≠ some file) : Keeps fs (fs.write file bytes) q := by
  intro file' found
  have : file' ≠ file := by rintro rfl; exact other found
  simp [found, Function.update_noteq this]

theorem keeps_rename {fs fs' : Store} {old new q : Path} (renamed : fs.rename old new = .ok fs')
    (fromOld : q ≠ old) (toNew : q ≠ new) : Keeps fs fs' q := by
  obtain ⟨_, -, data, -, names⟩ := Store.rename_ok renamed
  intro file found
  simp [names, fromOld, toNew, found, data]

section Agree

variable (ds : DiskStorage) (fs0 : Store) (bytesOf : BlobRef → List UInt8)

def HeldTemp (fs : Store) (blobRef : BlobRef) (temp : Path) (file : Inode) : Prop :=
  fs.names.lookup temp = some file ∧ fs0.next ≤ file ∧ fs0.names.lookup temp = none ∧
    ∃ suffix, temp = ds.tempFileName blobRef suffix

def CanonHolds (fs : Store) (blobRef : BlobRef) : Prop :=
  ∃ file, fs.names.lookup (ds.blobFileName blobRef) = some file ∧ fs.data file = bytesOf blobRef

/-- What a call of `blobRef` with no mirrors knows of the store at each counter of a run in
which no filesystem call fails. -/
def StreamsAt (fs : Store) (blobRef : BlobRef) : Pc → Prop
  | .start | .tempFile => True
  | .copy temp file reads hashed written =>
      HeldTemp ds fs0 fs blobRef temp file ∧ fs.data file = hashed ∧ written = hashed.length ∧
        hashed ++ reads.flatten = bytesOf blobRef
  | .sync temp hashed written | .close temp hashed written =>
      ∃ file, HeldTemp ds fs0 fs blobRef temp file ∧ fs.data file = bytesOf blobRef ∧
        hashed = bytesOf blobRef ∧ written = (bytesOf blobRef).length
  | .rename temp written =>
      ∃ file, HeldTemp ds fs0 fs blobRef temp file ∧ fs.data file = bytesOf blobRef ∧
        written = (bytesOf blobRef).length
  | .lstat _ written => CanonHolds ds bytesOf fs blobRef ∧ written = (bytesOf blobRef).length
  | .mirror _ size partitions =>
      CanonHolds ds bytesOf fs blobRef ∧ size = (bytesOf blobRef).length ∧ partitions = []
  | .link .. | .cleanup .. => False
  | .notify blobGot _ =>
      CanonHolds ds bytesOf fs blobRef ∧ blobGot = ⟨blobRef, (bytesOf blobRef).length⟩
  | .done result =>
      CanonHolds ds bytesOf fs blobRef ∧ result = .ok ⟨blobRef, (bytesOf blobRef).length⟩

def Sends (c : Call) : Prop :=
  ds.HashMatches c.blobRef (bytesOf c.blobRef) = true ∧ c.mirrorPartitions = [] ∧
    c.source.bytes = bytesOf c.blobRef ∧ c.source.err = none

def canonicalNames (calls : List Call) : List Path := calls.map fun c => ds.blobFileName c.blobRef

/-- The invariant of a failure-free run of calls that each stream their blob's bytes. -/
structure Agree (s : Sys) : Prop where
  sends : ∀ (j : Nat) (c : Call), s.calls[j]? = some c → Sends ds bytesOf c
  streams : ∀ (j : Nat) (c : Call), s.calls[j]? = some c →
    StreamsAt ds fs0 bytesOf s.store c.blobRef c.pc
  holders_unique : ∀ j k temp, Holds s.calls j temp → Holds s.calls k temp → j = k
  owned : ∀ j temp file q, Holds s.calls j temp → s.store.names.lookup temp = some file →
    s.store.names.lookup q = some file → q = temp
  names_frame : ∀ q, q ∉ canonicalNames ds s.calls →
    s.store.names.lookup q = fs0.names.lookup q ∨ ∃ j, Holds s.calls j q
  data_frame : ∀ file < fs0.next, s.store.data file = fs0.data file
  next_le : fs0.next ≤ s.store.next

variable {ds fs0 bytesOf}

theorem canonicalNames_set {calls : List Call} {i : Nat} {c : Call} {pc : Pc}
    (found : calls[i]? = some c) :
    canonicalNames ds (calls.set i { c with pc }) = canonicalNames ds calls := by
  simpa [canonicalNames, List.map_map, Function.comp_def] using
    congrArg (List.map fun c => ds.blobFileName c.blobRef) (@Sys.restart_set calls i c pc found)

theorem canonicalNames_run {s s' : Sys} {events : List Event} (ran : s.run ds events = some s') :
    canonicalNames ds s'.calls = canonicalNames ds s.calls := by
  simpa [canonicalNames, List.map_map, Function.comp_def] using
    congrArg (List.map fun c => ds.blobFileName c.blobRef) (Sys.restart_calls_run ds ran)

theorem HeldTemp.keep {fs fs' : Store} {blobRef : BlobRef} {temp : Path} {file : Inode}
    (held : HeldTemp ds fs0 fs blobRef temp file) (keeps : Keeps fs fs' temp) :
    HeldTemp ds fs0 fs' blobRef temp file ∧ fs'.data file = fs.data file :=
  have ⟨found, fresh, absent, isTemp⟩ := held
  have ⟨found', same⟩ := keeps file found
  ⟨⟨found', fresh, absent, isTemp⟩, same⟩

theorem HeldTemp.ne_blobFileName {fs : Store} {blobRef : BlobRef} {temp : Path} {file : Inode}
    (held : HeldTemp ds fs0 fs blobRef temp file) (other : BlobRef) :
    temp ≠ ds.blobFileName other := by
  obtain ⟨-, -, -, suffix, rfl⟩ := held
  exact ds.tempFileName_ne_blobFileName blobRef suffix other

theorem CanonHolds.keep {fs fs' : Store} {blobRef : BlobRef}
    (canon : CanonHolds ds bytesOf fs blobRef) (keeps : Keeps fs fs' (ds.blobFileName blobRef)) :
    CanonHolds ds bytesOf fs' blobRef :=
  have ⟨file, found, data⟩ := canon
  have ⟨found', same⟩ := keeps file found
  ⟨file, found', same.trans data⟩

theorem StreamsAt.holding {fs : Store} {blobRef : BlobRef} {pc : Pc} {temp : Path}
    (streams : StreamsAt ds fs0 bytesOf fs blobRef pc) (holds : pc.holding = some temp) :
    ∃ file, HeldTemp ds fs0 fs blobRef temp file := by
  cases pc <;> simp only [Pc.holding, reduceCtorEq, Option.some.injEq] at holds <;> subst holds
  · exact ⟨_, streams.1⟩
  case cleanup => exact streams.elim
  all_goals exact ⟨_, streams.choose_spec.1⟩

theorem StreamsAt.keep {fs fs' : Store} {blobRef : BlobRef} {pc : Pc}
    (streams : StreamsAt ds fs0 bytesOf fs blobRef pc)
    (held : ∀ temp, pc.holding = some temp → Keeps fs fs' temp)
    (canon : CanonHolds ds bytesOf fs blobRef → CanonHolds ds bytesOf fs' blobRef) :
    StreamsAt ds fs0 bytesOf fs' blobRef pc := by
  cases pc with
  | copy temp =>
      obtain ⟨holding, data, rest⟩ := streams
      obtain ⟨holding, same⟩ := holding.keep (held temp rfl)
      exact ⟨holding, same.trans data, rest⟩
  | sync temp | close temp | rename temp =>
      obtain ⟨file, holding, data, rest⟩ := streams
      obtain ⟨holding, same⟩ := holding.keep (held temp rfl)
      exact ⟨file, holding, same.trans data, rest⟩
  | lstat | mirror | notify | done => exact ⟨canon streams.1, streams.2⟩
  | start | tempFile | link | cleanup => exact streams

/-- A failure-free step of a call is local, its `ioutil.TempFile`, a `Write` or its `Rename`. -/
theorem StreamsAt.step {fs fs' : Store} {c : Call} {o : Outcome} {pc : Pc}
    {ops : List (Op × Option Errno)} (sends : Sends ds bytesOf c)
    (streams : StreamsAt ds fs0 bytesOf fs c.blobRef c.pc) (ok : o.isFailure = false)
    (stepped : c.step ds fs o = some (pc, fs', ops)) :
    (fs' = fs ∧ pc.holding = c.pc.holding ∧ StreamsAt ds fs0 bytesOf fs c.blobRef pc) ∨
      (∃ suffix, c.pc = .tempFile ∧ fs.names.lookup (ds.tempFileName c.blobRef suffix) = none ∧
        fs' = fs.create (ds.tempFileName c.blobRef suffix) ∧
        pc = .copy (ds.tempFileName c.blobRef suffix) fs.next c.source.reads [] 0) ∨
      (∃ temp file buf reads hashed written,
        c.pc = .copy temp file (buf :: reads) hashed written ∧ fs' = fs.write file buf ∧
        pc = .copy temp file reads (hashed ++ buf) (written + buf.length)) ∨
      (∃ temp written, c.pc = .rename temp written ∧
        fs.rename temp (ds.blobFileName c.blobRef) = .ok fs' ∧ pc = .lstat temp written) := by
  obtain ⟨blobRef, source, partitions, pc₀⟩ := c
  obtain ⟨hashOk, rfl, -, eof⟩ := sends
  dsimp only at eof hashOk streams ⊢
  cases o with
  | failed => cases ok
  | named suffix =>
      cases pc₀ with
      | tempFile =>
          simp only [Call.step, Call.tempFile] at stepped
          split at stepped
          · cases stepped
          · rename_i absent
            obtain ⟨rfl, rfl, -⟩ := Prod.mk.inj (Option.some.inj stepped)
            exact .inr (.inl ⟨suffix, rfl, absent, rfl, rfl⟩)
      | copy _ _ reads | mirror _ _ reads | notify _ reads => cases reads <;> cases stepped
      | _ => cases stepped
  | ok =>
      cases pc₀ with
      | start =>
          obtain ⟨rfl, rfl, -⟩ := Prod.mk.inj (Option.some.inj stepped)
          exact .inl ⟨rfl, rfl, trivial⟩
      | copy temp file reads hashed written =>
          cases reads with
          | nil =>
              simp only [Call.step, Call.copy, eof] at stepped
              obtain ⟨rfl, rfl, -⟩ := Prod.mk.inj (Option.some.inj stepped)
              obtain ⟨held, data, count, rest⟩ := streams
              have whole : hashed = bytesOf blobRef := by simpa using rest
              exact .inl ⟨rfl, rfl, file, held, data.trans whole, whole, count.trans (by rw [whole])⟩
          | cons buf reads =>
              obtain ⟨rfl, rfl, -⟩ := Prod.mk.inj (Option.some.inj stepped)
              exact .inr (.inr (.inl ⟨temp, file, buf, reads, hashed, written, rfl, rfl, rfl⟩))
      | sync =>
          obtain ⟨rfl, rfl, -⟩ := Prod.mk.inj (Option.some.inj stepped)
          exact .inl ⟨rfl, rfl, streams⟩
      | close temp hashed written =>
          obtain ⟨file, held, data, whole, count⟩ := streams
          simp only [Call.step, Call.close, whole, hashOk, if_true] at stepped
          obtain ⟨rfl, rfl, -⟩ := Prod.mk.inj (Option.some.inj stepped)
          exact .inl ⟨rfl, rfl, file, held, data, count⟩
      | rename temp written =>
          obtain ⟨file, held, -⟩ := streams
          obtain ⟨renamedStore, renamed⟩ := fs.rename_of_lookup (ds.blobFileName blobRef) held.1
          simp only [Call.step, Call.rename, renamed] at stepped
          obtain ⟨rfl, rfl, -⟩ := Prod.mk.inj (Option.some.inj stepped)
          exact .inr (.inr (.inr ⟨temp, written, rfl, renamed, rfl⟩))
      | lstat temp written =>
          obtain ⟨⟨file, found, data⟩, rfl⟩ := streams
          simp only [Call.step, Call.lstat, Store.Lstat, Store.lstat_eq, Store.contents, found,
            Option.map_some', data, Except.map, Bool.not_true, bne_self_eq_false, Bool.or_self,
            Bool.false_eq_true, if_false] at stepped
          obtain ⟨rfl, rfl, -⟩ := Prod.mk.inj (Option.some.inj stepped)
          exact .inl ⟨rfl, rfl, ⟨file, found, data⟩, rfl, rfl⟩
      | mirror temp size partitions =>
          obtain ⟨canon, rfl, rfl⟩ := streams
          obtain ⟨rfl, rfl, -⟩ := Prod.mk.inj (Option.some.inj stepped)
          exact .inl ⟨rfl, rfl, canon, rfl⟩
      | notify blobGot partitions =>
          obtain ⟨canon, rfl⟩ := streams
          cases partitions <;> obtain ⟨rfl, rfl, -⟩ := Prod.mk.inj (Option.some.inj stepped) <;>
            exact .inl ⟨rfl, rfl, canon, rfl⟩
      | tempFile | done => cases stepped
      | link | cleanup => exact streams.elim

theorem Agree.sends_set {s : Sys} {i : Nat} {c : Call} {pc : Pc} (agree : Agree ds fs0 bytesOf s)
    (found : s.calls[i]? = some c) :
    ∀ (j : Nat) (c' : Call), (s.calls.set i { c with pc })[j]? = some c' → Sends ds bytesOf c' :=
  forall_set found (agree.sends i c found) fun j c' _ => agree.sends j c'

theorem Agree.step_local {s : Sys} {i : Nat} {c : Call} {pc : Pc} (record : List Entry)
    (agree : Agree ds fs0 bytesOf s) (found : s.calls[i]? = some c)
    (streams : StreamsAt ds fs0 bytesOf s.store c.blobRef pc) (same : pc.holding = c.pc.holding) :
    Agree ds fs0 bytesOf ⟨s.store, s.calls.set i { c with pc }, record⟩ where
  sends := agree.sends_set found
  streams := forall_set found streams fun j c' _ => agree.streams j c'
  holders_unique j k temp heldJ heldK := agree.holders_unique j k temp
    ((holds_set_same found same).mp heldJ) ((holds_set_same found same).mp heldK)
  owned j temp file q held := agree.owned j temp file q ((holds_set_same found same).mp held)
  names_frame q other := by
    rw [canonicalNames_set found] at other
    exact (agree.names_frame q other).imp_right
      fun ⟨j, held⟩ => ⟨j, (holds_set_same found same).mpr held⟩
  data_frame := agree.data_frame
  next_le := agree.next_le

theorem Agree.step_create {s : Sys} {i : Nat} {c : Call} {suffix : String} (record : List Entry)
    (agree : Agree ds fs0 bytesOf s) (found : s.calls[i]? = some c) (atTempFile : c.pc = .tempFile)
    (absent : s.store.names.lookup (ds.tempFileName c.blobRef suffix) = none) :
    Agree ds fs0 bytesOf ⟨s.store.create (ds.tempFileName c.blobRef suffix),
      s.calls.set i
        { c with pc := .copy (ds.tempFileName c.blobRef suffix) s.store.next c.source.reads [] 0 },
      record⟩ := by
  have unheld : ∀ j, ¬ Holds s.calls j (ds.tempFileName c.blobRef suffix) :=
    fun j ⟨c', found', held⟩ => by
      obtain ⟨file, temp⟩ := (agree.streams j c' found').holding held
      rw [temp.1] at absent; cases absent
  have holds_new : ∀ j temp, Holds (s.calls.set i { c with
      pc := .copy (ds.tempFileName c.blobRef suffix) s.store.next c.source.reads [] 0 }) j temp ↔
      (j = i ∧ temp = ds.tempFileName c.blobRef suffix) ∨ Holds s.calls j temp := by
    intro j temp
    rw [holds_set found]
    by_cases here : j = i
    · subst here; simp [Holds, Pc.holding, found, atTempFile, eq_comm]
    · simp [here]
  have fresh : fs0.names.lookup (ds.tempFileName c.blobRef suffix) = none := by
    have notCanonical : ds.tempFileName c.blobRef suffix ∉ canonicalNames ds s.calls := by
      simp only [canonicalNames, List.mem_map, not_exists, not_and]
      exact fun c' _ same => ds.tempFileName_ne_blobFileName c.blobRef suffix c'.blobRef same.symm
    rcases agree.names_frame _ notCanonical with same | ⟨j, held⟩
    · rw [← same, absent]
    · exact (unheld j held).elim
  have keeps := keeps_create absent
  refine ⟨agree.sends_set found,
    forall_set found ?_ fun j c' _ found' => (agree.streams j c' found').keep
      (fun temp _ => keeps temp) (fun canon => canon.keep (keeps _)), ?_, ?_, ?_, ?_, ?_⟩
  · obtain ⟨-, -, bytes, -⟩ := agree.sends i c found
    exact ⟨⟨by simp, agree.next_le, fresh, suffix, rfl⟩, by simp, rfl, bytes⟩
  · intro j k temp heldJ heldK
    rcases (holds_new j temp).mp heldJ with ⟨rfl, rfl⟩ | heldJ
    · rcases (holds_new k _).mp heldK with ⟨rfl, -⟩ | heldK
      · rfl
      · exact (unheld k heldK).elim
    · rcases (holds_new k temp).mp heldK with ⟨-, rfl⟩ | heldK
      · exact (unheld j heldJ).elim
      · exact agree.holders_unique j k temp heldJ heldK
  · intro j temp file q held named other
    simp only [Store.lookup_create] at named other
    rcases (holds_new j temp).mp held with ⟨-, rfl⟩ | held
    · obtain rfl := Option.some.inj ((if_pos rfl).symm.trans named)
      split at other
      · assumption
      · exact absurd (s.store.lookup_lt other) (lt_irrefl _)
    · have apart : temp ≠ ds.tempFileName c.blobRef suffix := fun same => unheld j (same ▸ held)
      simp only [apart, if_false] at named
      split at other
      · cases other; exact absurd (s.store.lookup_lt named) (lt_irrefl _)
      · exact agree.owned j temp file q held named other
  · intro q other
    rw [canonicalNames_set found] at other
    by_cases here : q = ds.tempFileName c.blobRef suffix
    · exact .inr ⟨i, (holds_new i q).mpr (.inl ⟨rfl, here⟩)⟩
    · simp only [Store.lookup_create, here, if_false]
      exact (agree.names_frame q other).imp_right
        fun ⟨j, held⟩ => ⟨j, (holds_new j q).mpr (.inr held)⟩
  · intro file below
    simp [Function.update_noteq (lt_of_lt_of_le below agree.next_le).ne,
      agree.data_frame file below]
  · exact Nat.le_succ_of_le agree.next_le

theorem Agree.step_write {s : Sys} {i : Nat} {c : Call} {temp : Path} {file : Inode}
    {buf : List UInt8} {reads : List (List UInt8)} {hashed : List UInt8} {written : Nat}
    (record : List Entry) (agree : Agree ds fs0 bytesOf s) (found : s.calls[i]? = some c)
    (atCopy : c.pc = .copy temp file (buf :: reads) hashed written) :
    Agree ds fs0 bytesOf ⟨s.store.write file buf,
      s.calls.set i { c with pc := .copy temp file reads (hashed ++ buf) (written + buf.length) },
      record⟩ := by
  have streams := agree.streams i c found
  rw [atCopy] at streams
  obtain ⟨held, data, count, rest⟩ := streams
  have same : (Pc.copy temp file reads (hashed ++ buf) (written + buf.length)).holding =
      c.pc.holding := by rw [atCopy]; rfl
  have holdsI : Holds s.calls i temp := ⟨c, found, by rw [atCopy]; rfl⟩
  have keeps : ∀ q, q ≠ temp → Keeps s.store (s.store.write file buf) q :=
    fun q other => keeps_write buf fun named => other (agree.owned i temp file q holdsI held.1 named)
  refine ⟨agree.sends_set found,
    forall_set found ⟨held, by simp [data], by simp [count], by simpa using rest⟩ ?_,
    fun j k temp heldJ heldK => agree.holders_unique j k temp
      ((holds_set_same found same).mp heldJ) ((holds_set_same found same).mp heldK),
    fun j temp file q held => agree.owned j temp file q ((holds_set_same found same).mp held),
    fun q other => ?_, ?_, agree.next_le⟩
  · intro j c' other found'
    refine (agree.streams j c' found').keep (fun temp' held' => keeps temp' ?_)
      (fun canon => canon.keep (keeps _ (held.ne_blobFileName c'.blobRef).symm))
    rintro rfl
    exact other (agree.holders_unique j i temp' ⟨c', found', held'⟩ holdsI)
  · rw [canonicalNames_set found] at other
    exact (agree.names_frame q other).imp_right
      fun ⟨j, held⟩ => ⟨j, (holds_set_same found same).mpr held⟩
  · intro file' below
    simp [Function.update_noteq (lt_of_lt_of_le below held.2.1).ne, agree.data_frame file' below]

theorem Agree.step_rename {s : Sys} {i : Nat} {c : Call} {temp : Path} {written : Nat}
    {fs' : Store} (record : List Entry) (agree : Agree ds fs0 bytesOf s)
    (found : s.calls[i]? = some c) (atRename : c.pc = .rename temp written)
    (renamed : s.store.rename temp (ds.blobFileName c.blobRef) = .ok fs') :
    Agree ds fs0 bytesOf ⟨fs', s.calls.set i { c with pc := .lstat temp written }, record⟩ := by
  have streams := agree.streams i c found
  rw [atRename] at streams
  obtain ⟨file, held, data, count⟩ := streams
  obtain ⟨file', found', sameData, sameNext, names⟩ := Store.rename_ok renamed
  obtain rfl : file = file' := Option.some.inj (held.1.symm.trans found')
  have holdsI : Holds s.calls i temp := ⟨c, found, by rw [atRename]; rfl⟩
  have holds_new : ∀ j q, Holds (s.calls.set i { c with pc := .lstat temp written }) j q ↔
      j ≠ i ∧ Holds s.calls j q := by
    intro j q
    rw [holds_set found]
    by_cases here : j = i <;> simp [here, Pc.holding]
  have others : ∀ j q, j ≠ i → Holds s.calls j q → q ≠ temp :=
    fun j q other held' same => other (agree.holders_unique j i q held' (same ▸ holdsI))
  have canon : CanonHolds ds bytesOf fs' c.blobRef := ⟨file, by simp [names], by rw [sameData, data]⟩
  have canonKeep : ∀ blobRef, CanonHolds ds bytesOf s.store blobRef →
      CanonHolds ds bytesOf fs' blobRef := by
    intro blobRef before
    by_cases same : blobRef = c.blobRef
    · exact same ▸ canon
    · exact before.keep (keeps_rename renamed (held.ne_blobFileName blobRef).symm
        fun equal => same (ds.blobFileName_injective _ _ equal))
  refine ⟨agree.sends_set found,
    forall_set found ⟨canon, count⟩ ?_, ?_, ?_, ?_, ?_, sameNext ▸ agree.next_le⟩
  · intro j c' other found'
    refine (agree.streams j c' found').keep (fun q held' => ?_) (canonKeep c'.blobRef)
    obtain ⟨_, heldQ⟩ := (agree.streams j c' found').holding held'
    exact keeps_rename renamed (others j q other ⟨c', found', held'⟩) (heldQ.ne_blobFileName _)
  · intro j k q heldJ heldK
    exact agree.holders_unique j k q ((holds_new j q).mp heldJ).2 ((holds_new k q).mp heldK).2
  · intro j q file'' q' heldQ named named'
    obtain ⟨other, heldQ⟩ := (holds_new j q).mp heldQ
    obtain ⟨c', found', held'⟩ := heldQ
    obtain ⟨_, tempQ⟩ := (agree.streams j c' found').holding held'
    have apart := others j q other ⟨c', found', held'⟩
    simp only [names, tempQ.ne_blobFileName, apart, if_false] at named
    rw [names] at named'
    split at named'
    · cases named'
      exact absurd (agree.owned i temp file q holdsI held.1 named) apart
    · split at named'
      · cases named'
      · exact agree.owned j q file'' q' ⟨c', found', held'⟩ named named'
  · intro q other
    rw [canonicalNames_set found] at other
    have notCanonical : q ≠ ds.blobFileName c.blobRef :=
      fun same => other (same ▸ List.mem_map_of_mem _ (List.getElem?_mem found))
    rw [names q]
    simp only [notCanonical, if_false]
    by_cases here : q = temp
    · subst here
      simp only [if_true]
      exact .inl held.2.2.1.symm
    · simp only [here, if_false]
      refine (agree.names_frame q other).imp_right fun ⟨j, heldQ⟩ => ⟨j, (holds_new j q).mpr ⟨?_, heldQ⟩⟩
      rintro rfl
      exact here (heldQ.name_eq found (by rw [atRename]; rfl))
  · intro file'' below
    rw [sameData]
    exact agree.data_frame file'' below

theorem Agree.step {s s' : Sys} {e : Event} (agree : Agree ds fs0 bytesOf s)
    (ok : e.outcome.isFailure = false) (stepped : s.step ds e = some s') :
    Agree ds fs0 bytesOf s' := by
  obtain ⟨c, pc, ops, found, callStep, calls, record⟩ := Sys.step_eq_some ds stepped
  obtain ⟨store, calls', record'⟩ := s'
  dsimp only at calls record callStep
  subst calls record
  rcases (agree.streams _ c found).step (agree.sends _ c found) ok callStep with
    ⟨rfl, same, streams⟩ | ⟨suffix, atTempFile, absent, rfl, rfl⟩ |
      ⟨temp, file, buf, reads, hashed, written, atCopy, rfl, rfl⟩ |
      ⟨temp, written, atRename, renamed, rfl⟩
  · exact agree.step_local _ found streams same
  · exact agree.step_create _ found atTempFile absent
  · exact agree.step_write _ found atCopy
  · exact agree.step_rename _ found atRename renamed

theorem Agree.run {s s' : Sys} {events : List Event} (agree : Agree ds fs0 bytesOf s)
    (ok : ∀ e ∈ events, e.outcome.isFailure = false) (ran : s.run ds events = some s') :
    Agree ds fs0 bytesOf s' := by
  induction events generalizing s with
  | nil => exact Option.some.inj ran ▸ agree
  | cons e events ih =>
      obtain ⟨s₁, stepped, ran⟩ := Option.bind_eq_some.mp ran
      exact ih (agree.step (ok e (List.mem_cons_self _ _)) stepped)
        (fun e mem => ok e (List.mem_cons_of_mem _ mem)) ran

theorem agree_init {calls : List Call} (fresh : ∀ c ∈ calls, c.pc = .start)
    (sends : ∀ c ∈ calls, Sends ds bytesOf c) : Agree ds fs0 bytesOf (Sys.init fs0 calls) := by
  have unheld : ∀ j temp, ¬ Holds calls j temp := by
    rintro j temp ⟨c, found, held⟩
    rw [fresh c (List.getElem?_mem found)] at held
    cases held
  refine ⟨fun j c found => sends c (List.getElem?_mem found), fun j c found => ?_,
    fun j _ temp held => (unheld j temp held).elim, fun j temp _ _ held => (unheld j temp held).elim,
    fun q _ => .inl rfl, fun _ _ => rfl, le_refl _⟩
  rw [fresh c (List.getElem?_mem found)]
  trivial

/-- Where no failure-free step is left, every call has returned its blob, whose canonical name
holds its bytes, and every other name is as the calls found it. -/
theorem Agree.final {s : Sys} (agree : Agree ds fs0 bytesOf s)
    (complete : ∀ e : Event, e.outcome.isFailure = false → s.step ds e = none) :
    (∀ c ∈ s.calls, c.pc = .done (.ok ⟨c.blobRef, (bytesOf c.blobRef).length⟩) ∧
      s.store.contents (ds.blobFileName c.blobRef) = some (bytesOf c.blobRef)) ∧
    ∀ q, q ∉ canonicalNames ds s.calls →
      s.store.names.lookup q = fs0.names.lookup q ∧ s.store.contents q = fs0.contents q := by
  have finished : ∀ (j : Nat) (c : Call), s.calls[j]? = some c →
      c.pc = .done (.ok ⟨c.blobRef, (bytesOf c.blobRef).length⟩) ∧
        CanonHolds ds bytesOf s.store c.blobRef := by
    intro j c found
    obtain ⟨result, atDone⟩ := Sys.returned_of_stuck ds complete c (List.getElem?_mem found)
    have streams := agree.streams j c found
    rw [atDone] at streams
    exact ⟨atDone.trans (congrArg _ streams.2), streams.1⟩
  refine ⟨fun c mem => ?_, fun q other => ?_⟩
  · obtain ⟨j, found⟩ := List.mem_iff_getElem?.mp mem
    obtain ⟨atDone, file, named, data⟩ := finished j c found
    exact ⟨atDone, by simp [Store.contents, named, data]⟩
  · have same : s.store.names.lookup q = fs0.names.lookup q := by
      refine (agree.names_frame q other).resolve_right ?_
      rintro ⟨j, c, found, held⟩
      rw [(finished j c found).1] at held
      cases held
    refine ⟨same, ?_⟩
    simp only [Store.contents, same]
    cases named : fs0.names.lookup q with
    | none => rfl
    | some file => simp [agree.data_frame file (fs0.lookup_lt named)]

end Agree

theorem requests_commit (ds : DiskStorage) (fs0 : Store)
    (bytesOf : BlobRef → List UInt8) (requests : List (BlobRef × Source))
    (verified : ∀ r ∈ requests,
      ds.HashMatches r.1 (bytesOf r.1) = true ∧ r.2.bytes = bytesOf r.1 ∧ r.2.err = none)
    {events : List Event} {s : Sys}
    (ran : (Sys.init fs0 (requests.map fun r => ReceiveBlob r.1 r.2 [])).run ds events = some s)
    (noFailure : ∀ e ∈ events, e.outcome.isFailure = false)
    (complete : ∀ e : Event, e.outcome.isFailure = false → s.step ds e = none) :
    s.calls.map Call.pc = requests.map (fun r => .done (.ok ⟨r.1, (bytesOf r.1).length⟩)) ∧
      (∀ r ∈ requests, s.store.contents (ds.blobFileName r.1) = some (bytesOf r.1)) ∧
      ∀ q, q ∉ requests.map (fun r => ds.blobFileName r.1) →
        s.store.names.lookup q = fs0.names.lookup q ∧ s.store.contents q = fs0.contents q := by
  have agree : Agree ds fs0 bytesOf s := by
    refine (agree_init (fun c mem => ?_) fun c mem => ?_).run noFailure ran <;>
      obtain ⟨r, member, rfl⟩ := List.mem_map.mp mem
    exacts [rfl, ⟨(verified r member).1, rfl, (verified r member).2⟩]
  obtain ⟨finished, frame⟩ := agree.final complete
  have restarted : s.calls.map (fun c => { c with pc := .start }) =
      requests.map fun r => ReceiveBlob r.1 r.2 [] := by
    simpa [Sys.init, List.map_map, Function.comp_def, ReceiveBlob] using
      Sys.restart_calls_run ds ran
  refine ⟨?_, fun r mem => ?_, fun q other => frame q ?_⟩
  · calc s.calls.map Call.pc
        = s.calls.map fun c => .done (.ok ⟨c.blobRef, (bytesOf c.blobRef).length⟩) :=
          List.map_congr_left fun c mem => (finished c mem).1
      _ = (s.calls.map fun c => { c with pc := .start }).map
            fun c => .done (.ok ⟨c.blobRef, (bytesOf c.blobRef).length⟩) := by
          rw [List.map_map]; rfl
      _ = requests.map fun r => .done (.ok ⟨r.1, (bytesOf r.1).length⟩) := by
          rw [restarted, List.map_map]; rfl
  · have requested := List.mem_map_of_mem (fun r => ReceiveBlob r.1 r.2 []) mem
    rw [← restarted] at requested
    obtain ⟨c, member, same⟩ := List.mem_map.mp requested
    have blob : c.blobRef = r.1 := congrArg Call.blobRef same
    simpa [blob] using (finished c member).2
  · have names : canonicalNames ds s.calls = requests.map fun r => ds.blobFileName r.1 := by
      rw [canonicalNames_run ran]
      simp [canonicalNames, Sys.init, List.map_map, Function.comp_def, ReceiveBlob]
    rwa [names]

/-- Failure-free concurrent receives of one blob, each reading it in its own chunks, all return
it; the canonical name holds it and every other name is as before. -/
theorem receiveBlob_concurrent_same_blob_agree (ds : DiskStorage) (fs0 : Store) (A : BlobRef)
    (S : List UInt8) (sources : List Source) (hashOk : ds.HashMatches A S = true)
    (nonempty : sources ≠ []) (sends : ∀ source ∈ sources, source.bytes = S ∧ source.err = none)
    {events : List Event} {s : Sys}
    (ran : (Sys.init fs0 (sources.map fun source => ReceiveBlob A source [])).run ds events =
      some s)
    (noFailure : ∀ e ∈ events, e.outcome.isFailure = false)
    (complete : ∀ e : Event, e.outcome.isFailure = false → s.step ds e = none) :
    s.calls.map Call.pc = List.replicate sources.length (.done (.ok ⟨A, S.length⟩)) ∧
      s.store.contents (ds.blobFileName A) = some S ∧
      ∀ q, q ≠ ds.blobFileName A →
        s.store.names.lookup q = fs0.names.lookup q ∧ s.store.contents q = fs0.contents q := by
  have requested : (sources.map fun source => ReceiveBlob A source []) =
      (sources.map (A, ·)).map fun r => ReceiveBlob r.1 r.2 [] := by
    rw [List.map_map]; rfl
  rw [requested] at ran
  obtain ⟨finished, stored, frame⟩ := requests_commit ds fs0 (fun _ => S) (sources.map (A, ·))
    (by simpa using fun source mem => ⟨hashOk, sends source mem⟩) ran noFailure complete
  obtain ⟨source, mem⟩ := List.exists_mem_of_ne_nil sources nonempty
  refine ⟨by simpa [List.map_map, Function.comp_def, List.map_const'] using finished,
    stored (A, source) (List.mem_map_of_mem _ mem), fun q other => frame q ?_⟩
  simpa [List.map_map, Function.comp_def] using fun _ => other

def agreeEvents : List Event :=
  [⟨0, .ok⟩, ⟨1, .ok⟩, ⟨0, .named "1"⟩, ⟨1, .named "2"⟩, ⟨0, .ok⟩] ++
    List.replicate 5 ⟨1, .ok⟩ ++ List.replicate 5 ⟨0, .ok⟩ ++ List.replicate 4 ⟨1, .ok⟩ ++
    List.replicate 4 ⟨0, .ok⟩

def agreeRun : Sys :=
  ((Sys.init Store.empty [ReceiveBlob sampleBlob ⟨[[1], [2]], none⟩ [],
    ReceiveBlob sampleBlob ⟨[[1, 2]], none⟩ []]).run sampleStorage agreeEvents).getD
    (Sys.init Store.empty [])

theorem two_receives_agree :
    agreeRun.calls.map Call.pc = List.replicate 2 (.done (.ok ⟨sampleBlob, 2⟩)) ∧
      agreeRun.store.contents (sampleStorage.blobFileName sampleBlob) = some [1, 2] ∧
      ∀ q, q ≠ sampleStorage.blobFileName sampleBlob →
        agreeRun.store.names.lookup q = Store.empty.names.lookup q ∧
          agreeRun.store.contents q = Store.empty.contents q :=
  @receiveBlob_concurrent_same_blob_agree sampleStorage Store.empty sampleBlob [1, 2]
    [⟨[[1], [2]], none⟩, ⟨[[1, 2]], none⟩] rfl (by simp) (by simp [Source.bytes]) agreeEvents
    agreeRun rfl (by decide)
    fun ⟨i, _⟩ _ => by rcases i with _ | _ | i <;> rfl

/-- Failure-free concurrent receives of any verified blobs all return their blobs, each canonical
name holds its blob's bytes, and no other name changes. -/
theorem receiveBlob_concurrent_verified_blobs_commit (ds : DiskStorage) (fs0 : Store)
    (bytesOf : BlobRef → List UInt8) (requests : List (BlobRef × Source))
    (verified : ∀ r ∈ requests,
      ds.HashMatches r.1 (bytesOf r.1) = true ∧ r.2.bytes = bytesOf r.1 ∧ r.2.err = none)
    {events : List Event} {s : Sys}
    (ran : (Sys.init fs0 (requests.map fun r => ReceiveBlob r.1 r.2 [])).run ds events = some s)
    (noFailure : ∀ e ∈ events, e.outcome.isFailure = false)
    (complete : ∀ e : Event, e.outcome.isFailure = false → s.step ds e = none) :
    s.calls.map Call.pc = requests.map (fun r => .done (.ok ⟨r.1, (bytesOf r.1).length⟩)) ∧
      (∀ r ∈ requests, s.store.contents (ds.blobFileName r.1) = some (bytesOf r.1)) ∧
      ∀ q, q ∉ requests.map (fun r => ds.blobFileName r.1) →
        s.store.names.lookup q = fs0.names.lookup q ∧ s.store.contents q = fs0.contents q :=
  requests_commit ds fs0 bytesOf requests verified ran noFailure complete

def oneByteBlob : BlobRef := ⟨"sha1", String.mk [Char.ofNat 3]⟩

def twoBlobsEvents : List Event :=
  [⟨0, .ok⟩, ⟨1, .ok⟩, ⟨0, .named "1"⟩, ⟨1, .named "1"⟩] ++
    (List.replicate 9 [⟨0, .ok⟩, ⟨1, .ok⟩]).flatten ++ [⟨0, .ok⟩]

def twoBlobsRun : Sys :=
  ((Sys.init Store.empty [ReceiveBlob sampleBlob ⟨[[1], [2]], none⟩ [],
    ReceiveBlob oneByteBlob ⟨[[3]], none⟩ []]).run sampleStorage twoBlobsEvents).getD
    (Sys.init Store.empty [])

theorem two_blobs_commit :
    twoBlobsRun.calls.map Call.pc =
        [.done (.ok ⟨sampleBlob, 2⟩), .done (.ok ⟨oneByteBlob, 1⟩)] ∧
      (∀ r ∈ [(sampleBlob, (⟨[[1], [2]], none⟩ : Source)), (oneByteBlob, ⟨[[3]], none⟩)],
        twoBlobsRun.store.contents (sampleStorage.blobFileName r.1) =
          some (if r.1 = sampleBlob then [1, 2] else [3])) ∧
      ∀ q, q ∉ [sampleStorage.blobFileName sampleBlob, sampleStorage.blobFileName oneByteBlob] →
        twoBlobsRun.store.names.lookup q = Store.empty.names.lookup q ∧
          twoBlobsRun.store.contents q = Store.empty.contents q :=
  @receiveBlob_concurrent_verified_blobs_commit sampleStorage Store.empty
    (fun b => if b = sampleBlob then [1, 2] else [3])
    [(sampleBlob, ⟨[[1], [2]], none⟩), (oneByteBlob, ⟨[[3]], none⟩)] (by decide) twoBlobsEvents
    twoBlobsRun rfl (by decide)
    fun ⟨i, _⟩ _ => by rcases i with _ | _ | i <;> rfl

end Camlistore
