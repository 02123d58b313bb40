import Camlistore.Concurrent

/-! # What only the deferred `os.Remove` breaks

Any number of calls of any blobs, with any sources and mirror lists, share the store, and any
filesystem call may fail.  As long as no call fails after its `Rename`, so that every deferred
`os.Remove(tempFile.Name())` runs while the name is still the call's own, whatever a call puts
under a canonical or mirror name of a blob is a file it wrote itself and whose bytes it hashed to
the blob's digest: a canonical name is reached only by the `Rename` of a verified temp file, and a
mirror name only by a `Link` of the canonical name after the call's own `Rename`.  The runs of
`NameReuse` show that the hypothesis cannot be dropped. -/

set_option autoImplicit false

namespace Camlistore

theorem keeps_link {fs fs' : Store} {old new q : Path} (linked : fs.link old new = .ok fs')
    (other : q ≠ new) : Keeps fs fs' q := by
  obtain ⟨_, -, -, data, -, names⟩ := Store.link_ok linked
  intro file found
  simp [names, other, found, data]

theorem keeps_remove {fs fs' : Store} {p q : Path} (removed : fs.remove p = .ok fs')
    (other : q ≠ p) : Keeps fs fs' q := by
  obtain ⟨-, data, -, names⟩ := Store.remove_ok removed
  intro file found
  simp [names, other, found, data]

def RenamedBy (record : List Entry) (call : Nat) : Prop :=
  ∃ e ∈ record, e.call = call ∧ e.renamed ≠ none

theorem RenamedBy.append {record : List Entry} {call : Nat} (renamed : RenamedBy record call)
    (more : List Entry) : RenamedBy (record ++ more) call :=
  have ⟨e, mem, rest⟩ := renamed
  ⟨e, List.mem_append_left more mem, rest⟩

instance (record : List Entry) (call : Nat) : Decidable (RenamedBy record call) :=
  inferInstanceAs (Decidable (∃ e ∈ record, e.call = call ∧ e.renamed ≠ none))

/-- The call's deferred function runs, or has run, with `success` false. -/
def Pc.failing : Pc → Bool
  | .cleanup .. | .done (.error _) => true
  | _ => false

def NoFailedCommit (s : Sys) : Prop :=
  ∀ (j : Nat) (c : Call), s.calls[j]? = some c → RenamedBy s.record j → c.pc.failing = false

section Safe

variable (ds : DiskStorage) (fs0 : Store)

def OwnTemp (fs : Store) (blobRef : BlobRef) (temp : Path) (file : Inode) : Prop :=
  fs.names.lookup temp = some file ∧ fs0.next ≤ file ∧ ∃ suffix, temp = ds.tempFileName blobRef suffix

def Verified (fs : Store) (blobRef : BlobRef) (q : Path) : Prop :=
  ∃ file, fs.names.lookup q = some file ∧ fs0.next ≤ file ∧
    ds.HashMatches blobRef (fs.data file) = true

def NamesBlob (blobRef : BlobRef) (q : Path) : Prop :=
  q = ds.blobFileName blobRef ∨ ∃ partition, q = ds.partitionBlobFileName partition blobRef

/-- What call `j` of `blobRef` knows of the store and the record at each counter, whatever has
failed, as long as it did not fail after its `Rename`. -/
def SafeAt (fs : Store) (record : List Entry) (j : Nat) (blobRef : BlobRef) : Pc → Prop
  | .start | .tempFile | .notify .. | .done _ => True
  | .copy temp file _ hashed _ => OwnTemp ds fs0 fs blobRef temp file ∧ fs.data file = hashed
  | .sync temp hashed _ | .close temp hashed _ =>
      ∃ file, OwnTemp ds fs0 fs blobRef temp file ∧ fs.data file = hashed
  | .rename temp _ =>
      ∃ file, OwnTemp ds fs0 fs blobRef temp file ∧ ds.HashMatches blobRef (fs.data file) = true
  | .lstat .. | .mirror .. | .link .. =>
      Verified ds fs0 fs blobRef (ds.blobFileName blobRef) ∧ RenamedBy record j
  | .cleanup temp _ => ∃ file, OwnTemp ds fs0 fs blobRef temp file

/-- The invariant of a run of any calls with any failures in which no call failed after its
`Rename`. -/
structure Safe (s : Sys) : Prop where
  safe : ∀ (j : Nat) (c : Call), s.calls[j]? = some c →
    SafeAt ds fs0 s.store s.record j c.blobRef c.pc
  holders_unique : ∀ j k temp, Holds s.calls j temp → Holds s.calls k temp → j = k
  owned : ∀ j temp file q, Holds s.calls j temp → s.store.names.lookup temp = some file →
    s.store.names.lookup q = some file → q = temp
  /-- A canonical or mirror name is as in the initial store or names a verified file. -/
  integrity : ∀ blobRef q, NamesBlob ds blobRef q →
    s.store.names.lookup q = fs0.names.lookup q ∨ Verified ds fs0 s.store blobRef q
  data_frame : ∀ file < fs0.next, s.store.data file = fs0.data file
  next_le : fs0.next ≤ s.store.next

variable {ds fs0}

theorem OwnTemp.keep {fs fs' : Store} {blobRef : BlobRef} {temp : Path} {file : Inode}
    (own : OwnTemp ds fs0 fs blobRef temp file) (keeps : Keeps fs fs' temp) :
    OwnTemp ds fs0 fs' blobRef temp file :=
  have ⟨found, fresh, isTemp⟩ := own
  ⟨(keeps file found).1, fresh, isTemp⟩

theorem tempFileName_not_namesBlob (blobRef : BlobRef) (suffix : String) (other : BlobRef) :
    ¬ NamesBlob ds other (ds.tempFileName blobRef suffix) := by
  rintro (named | ⟨partition, named⟩)
  · exact ds.tempFileName_ne_blobFileName blobRef suffix other named
  · exact ds.tempFileName_ne_partitionBlobFileName blobRef suffix partition other named

theorem OwnTemp.not_namesBlob {fs : Store} {blobRef : BlobRef} {temp : Path} {file : Inode}
    (own : OwnTemp ds fs0 fs blobRef temp file) (other : BlobRef) : ¬ NamesBlob ds other temp := by
  obtain ⟨-, -, suffix, rfl⟩ := own
  exact tempFileName_not_namesBlob blobRef suffix other

theorem OwnTemp.ne_blobFileName {fs : Store} {blobRef : BlobRef} {temp : Path} {file : Inode}
    (own : OwnTemp ds fs0 fs blobRef temp file) (other : BlobRef) : temp ≠ ds.blobFileName other :=
  fun here => own.not_namesBlob other (.inl here)

theorem OwnTemp.ne_partitionBlobFileName {fs : Store} {blobRef : BlobRef} {temp : Path}
    {file : Inode} (own : OwnTemp ds fs0 fs blobRef temp file) (partition : Partition)
    (other : BlobRef) : temp ≠ ds.partitionBlobFileName partition other :=
  fun here => own.not_namesBlob other (.inr ⟨partition, here⟩)

theorem Verified.keep {fs fs' : Store} {blobRef : BlobRef} {q : Path}
    (verified : Verified ds fs0 fs blobRef q) (keeps : Keeps fs fs' q) :
    Verified ds fs0 fs' blobRef q :=
  have ⟨file, found, fresh, hashOk⟩ := verified
  have ⟨found', same⟩ := keeps file found
  ⟨file, found', fresh, same ▸ hashOk⟩

theorem SafeAt.holding {fs : Store} {record : List Entry} {j : Nat} {blobRef : BlobRef} {pc : Pc}
    {temp : Path} (safe : SafeAt ds fs0 fs record j blobRef pc) (holds : pc.holding = some temp) :
    ∃ file, OwnTemp ds fs0 fs blobRef temp file := by
  cases pc <;> simp only [Pc.holding, reduceCtorEq, Option.some.injEq] at holds <;> subst holds
  · exact ⟨_, safe.1⟩
  case cleanup => exact safe
  all_goals exact ⟨_, safe.choose_spec.1⟩

theorem SafeAt.keep {fs fs' : Store} {record : List Entry} {j : Nat} {blobRef : BlobRef} {pc : Pc}
    (safe : SafeAt ds fs0 fs record j blobRef pc)
    (held : ∀ temp, pc.holding = some temp → Keeps fs fs' temp)
    (canon : Verified ds fs0 fs blobRef (ds.blobFileName blobRef) →
      Verified ds fs0 fs' blobRef (ds.blobFileName blobRef))
    (more : List Entry) : SafeAt ds fs0 fs' (record ++ more) j blobRef pc := by
  cases pc with
  | copy temp file =>
      obtain ⟨own, data⟩ := safe
      exact ⟨own.keep (held temp rfl), ((held temp rfl) file own.1).2.trans data⟩
  | sync temp | close temp =>
      obtain ⟨file, own, data⟩ := safe
      exact ⟨file, own.keep (held temp rfl), ((held temp rfl) file own.1).2.trans data⟩
  | rename temp =>
      obtain ⟨file, own, hashOk⟩ := safe
      exact ⟨file, own.keep (held temp rfl), ((held temp rfl) file own.1).2 ▸ hashOk⟩
  | lstat | mirror | link => exact ⟨canon safe.1, safe.2.append more⟩
  | cleanup temp =>
      obtain ⟨file, own⟩ := safe
      exact ⟨file, own.keep (held temp rfl)⟩
  | start | tempFile | notify | done => trivial

/-- What one step of a call can do to the store, whatever fails, with the call's view after the
step. -/
theorem SafeAt.step {fs fs' : Store} {record : List Entry} {j : Nat} {c : Call} {o : Outcome}
    {pc : Pc} {ops : List (Op × Option Errno)} (safe : SafeAt ds fs0 fs record j c.blobRef c.pc)
    (stepped : c.step ds fs o = some (pc, fs', ops)) :
    (fs' = fs ∧ ((SafeAt ds fs0 fs record j c.blobRef pc ∧
        (pc.holding = c.pc.holding ∨ pc.holding = none)) ∨
      (pc.failing = true ∧ RenamedBy record j))) ∨
    (∃ suffix, c.pc = .tempFile ∧ fs.names.lookup (ds.tempFileName c.blobRef suffix) = none ∧
      fs' = fs.create (ds.tempFileName c.blobRef suffix) ∧
      pc = .copy (ds.tempFileName c.blobRef suffix) fs.next c.source.reads [] 0) ∨
    (∃ temp file bytes, c.pc.holding = some temp ∧ pc.holding = some temp ∧
      OwnTemp ds fs0 fs c.blobRef temp file ∧ fs' = fs.write file bytes ∧
      SafeAt ds fs0 fs' record j c.blobRef pc) ∨
    (∃ temp written, c.pc = .rename temp written ∧
      fs.rename temp (ds.blobFileName c.blobRef) = .ok fs' ∧ pc = .lstat temp written ∧
      SafeAt ds fs0 fs' (record ++ stamp j ops) j c.blobRef pc) ∨
    (∃ temp size partition partitions, c.pc = .link temp size partition partitions ∧
      fs.link (ds.blobFileName c.blobRef) (ds.partitionBlobFileName partition c.blobRef) =
        .ok fs' ∧ pc = .mirror temp size partitions) ∨
    (∃ temp err, c.pc = .cleanup temp err ∧ fs.remove temp = .ok fs' ∧ pc = .done (.error err)) := by
  obtain ⟨blobRef, source, partitions, pc₀⟩ := c
  dsimp only at safe ⊢
  cases pc₀ with
  | start =>
      cases o <;> simp only [Call.step, Call.mkdirAll, reduceCtorEq] at stepped <;>
        obtain ⟨rfl, rfl, -⟩ := Prod.mk.inj (Option.some.inj stepped) <;>
        exact .inl ⟨rfl, .inl ⟨trivial, .inl rfl⟩⟩
  | tempFile =>
      cases o with
      | named suffix =>
          simp only [Call.step, Call.tempFile] at stepped
          split at stepped
          · cases stepped
          · rename_i absent
            obtain ⟨rfl, rfl, -⟩ := Prod.mk.inj (Option.some.inj stepped)
            exact .inr (.inl ⟨suffix, rfl, absent, rfl, rfl⟩)
      | ok => cases stepped
      | failed =>
          obtain ⟨rfl, rfl, -⟩ := Prod.mk.inj (Option.some.inj stepped)
          exact .inl ⟨rfl, .inl ⟨trivial, .inl rfl⟩⟩
  | copy temp file reads hashed written =>
      obtain ⟨own, data⟩ := safe
      cases reads with
      | cons buf reads =>
          cases o with
          | ok =>
              obtain ⟨rfl, rfl, -⟩ := Prod.mk.inj (Option.some.inj stepped)
              exact .inr (.inr (.inl ⟨temp, file, buf, rfl, rfl, own, rfl, own, by simp [data]⟩))
          | failed e through =>
              obtain ⟨rfl, rfl, -⟩ := Prod.mk.inj (Option.some.inj stepped)
              exact .inr (.inr (.inl ⟨temp, file, _, rfl, rfl, own, rfl, file, own⟩))
          | named => cases stepped
      | nil =>
          cases o with
          | ok =>
              simp only [Call.step, Call.copy] at stepped
              split at stepped <;> obtain ⟨rfl, rfl, -⟩ := Prod.mk.inj (Option.some.inj stepped)
              · exact .inl ⟨rfl, .inl ⟨⟨file, own, data⟩, .inl rfl⟩⟩
              · exact .inl ⟨rfl, .inl ⟨⟨file, own⟩, .inl rfl⟩⟩
          | named | failed => cases stepped
  | sync temp hashed written =>
      obtain ⟨file, own, data⟩ := safe
      cases o with
      | ok =>
          obtain ⟨rfl, rfl, -⟩ := Prod.mk.inj (Option.some.inj stepped)
          exact .inl ⟨rfl, .inl ⟨⟨file, own, data⟩, .inl rfl⟩⟩
      | failed =>
          obtain ⟨rfl, rfl, -⟩ := Prod.mk.inj (Option.some.inj stepped)
          exact .inl ⟨rfl, .inl ⟨⟨file, own⟩, .inl rfl⟩⟩
      | named => cases stepped
  | close temp hashed written =>
      obtain ⟨file, own, data⟩ := safe
      cases o with
      | ok =>
          simp only [Call.step, Call.close] at stepped
          split at stepped <;> obtain ⟨rfl, rfl, -⟩ := Prod.mk.inj (Option.some.inj stepped)
          · rename_i hashOk
            exact .inl ⟨rfl, .inl ⟨⟨file, own, data ▸ hashOk⟩, .inl rfl⟩⟩
          · exact .inl ⟨rfl, .inl ⟨⟨file, own⟩, .inl rfl⟩⟩
      | failed =>
          obtain ⟨rfl, rfl, -⟩ := Prod.mk.inj (Option.some.inj stepped)
          exact .inl ⟨rfl, .inl ⟨⟨file, own⟩, .inl rfl⟩⟩
      | named => cases stepped
  | rename temp written =>
      obtain ⟨file, own, hashOk⟩ := safe
      cases o with
      | ok =>
          simp only [Call.step, Call.rename] at stepped
          split at stepped <;> obtain ⟨rfl, rfl, rfl⟩ := Prod.mk.inj (Option.some.inj stepped)
          · rename_i renamedStore renamed
            obtain ⟨file', found, data, -, names⟩ := Store.rename_ok renamed
            obtain rfl : file = file' := Option.some.inj (own.1.symm.trans found)
            refine .inr (.inr (.inr (.inl ⟨temp, written, rfl, renamed, rfl,
              ⟨file, by simp [names], own.2.1, by rw [data]; exact hashOk⟩, ?_⟩)))
            exact ⟨_, List.mem_append_right _ (List.mem_singleton_self _), rfl, by simp⟩
          · exact .inl ⟨rfl, .inl ⟨⟨file, own⟩, .inl rfl⟩⟩
      | failed =>
          obtain ⟨rfl, rfl, -⟩ := Prod.mk.inj (Option.some.inj stepped)
          exact .inl ⟨rfl, .inl ⟨⟨file, own⟩, .inl rfl⟩⟩
      | named => cases stepped
  | lstat temp written =>
      cases o with
      | ok =>
          simp only [Call.step, Call.lstat] at stepped
          split at stepped
          · split at stepped <;> obtain ⟨rfl, rfl, -⟩ := Prod.mk.inj (Option.some.inj stepped)
            · exact .inl ⟨rfl, .inr ⟨rfl, safe.2⟩⟩
            · exact .inl ⟨rfl, .inl ⟨safe, .inl rfl⟩⟩
          · obtain ⟨rfl, rfl, -⟩ := Prod.mk.inj (Option.some.inj stepped)
            exact .inl ⟨rfl, .inr ⟨rfl, safe.2⟩⟩
      | failed =>
          obtain ⟨rfl, rfl, -⟩ := Prod.mk.inj (Option.some.inj stepped)
          exact .inl ⟨rfl, .inr ⟨rfl, safe.2⟩⟩
      | named => cases stepped
  | mirror temp size partitions =>
      cases partitions <;> cases o
      case nil.ok =>
        obtain ⟨rfl, rfl, -⟩ := Prod.mk.inj (Option.some.inj stepped)
        exact .inl ⟨rfl, .inl ⟨trivial, .inl rfl⟩⟩
      case cons.ok =>
        obtain ⟨rfl, rfl, -⟩ := Prod.mk.inj (Option.some.inj stepped)
        exact .inl ⟨rfl, .inl ⟨safe, .inl rfl⟩⟩
      case cons.failed =>
        obtain ⟨rfl, rfl, -⟩ := Prod.mk.inj (Option.some.inj stepped)
        exact .inl ⟨rfl, .inr ⟨rfl, safe.2⟩⟩
      all_goals cases stepped
  | link temp size partition partitions =>
      cases o with
      | ok =>
          simp only [Call.step, Call.link] at stepped
          split at stepped <;> obtain ⟨rfl, rfl, -⟩ := Prod.mk.inj (Option.some.inj stepped)
          · rename_i linkedStore linked
            exact .inr (.inr (.inr (.inr (.inl ⟨temp, size, partition, partitions, rfl, linked, rfl⟩))))
          · exact .inl ⟨rfl, .inr ⟨rfl, safe.2⟩⟩
      | failed =>
          obtain ⟨rfl, rfl, -⟩ := Prod.mk.inj (Option.some.inj stepped)
          exact .inl ⟨rfl, .inr ⟨rfl, safe.2⟩⟩
      | named => cases stepped
  | notify blobGot partitions =>
      cases partitions <;> cases o
      case nil.ok | cons.ok =>
        obtain ⟨rfl, rfl, -⟩ := Prod.mk.inj (Option.some.inj stepped)
        exact .inl ⟨rfl, .inl ⟨trivial, .inl rfl⟩⟩
      all_goals cases stepped
  | cleanup temp err =>
      cases o with
      | ok =>
          simp only [Call.step, Call.cleanup] at stepped
          split at stepped <;> obtain ⟨rfl, rfl, -⟩ := Prod.mk.inj (Option.some.inj stepped)
          · rename_i removedStore removed
            exact .inr (.inr (.inr (.inr (.inr ⟨temp, err, rfl, removed, rfl⟩))))
          · exact .inl ⟨rfl, .inl ⟨trivial, .inr rfl⟩⟩
      | failed =>
          obtain ⟨rfl, rfl, -⟩ := Prod.mk.inj (Option.some.inj stepped)
          exact .inl ⟨rfl, .inl ⟨trivial, .inr rfl⟩⟩
      | named => cases stepped
  | done => cases stepped

theorem keeps_self (fs : Store) (q : Path) : Keeps fs fs q := fun _ found => ⟨found, rfl⟩

theorem holds_set_sub {calls : List Call} {i j : Nat} {c : Call} {pc : Pc} {temp : Path}
    (found : calls[i]? = some c) (holding : pc.holding = c.pc.holding ∨ pc.holding = none)
    (held : Holds (calls.set i { c with pc }) j temp) : Holds calls j temp := by
  rw [holds_set found] at held
  split at held
  · subst_vars
    rcases holding with same | none
    · exact ⟨c, found, same ▸ held⟩
    · rw [none] at held; cases held
  · exact held

theorem Safe.step_local {s : Sys} {i : Nat} {c : Call} {pc : Pc} (more : List Entry)
    (safe : Safe ds fs0 s) (found : s.calls[i]? = some c)
    (safeAt : SafeAt ds fs0 s.store s.record i c.blobRef pc)
    (holding : pc.holding = c.pc.holding ∨ pc.holding = none) :
    Safe ds fs0 ⟨s.store, s.calls.set i { c with pc }, s.record ++ more⟩ where
  safe := forall_set found (safeAt.keep (fun _ _ => keeps_self _ _) id more)
    fun j c' _ found' => (safe.safe j c' found').keep (fun _ _ => keeps_self _ _) id more
  holders_unique j k temp heldJ heldK := safe.holders_unique j k temp
    (holds_set_sub found holding heldJ) (holds_set_sub found holding heldK)
  owned j temp file q held := safe.owned j temp file q (holds_set_sub found holding held)
  integrity := safe.integrity
  data_frame := safe.data_frame
  next_le := safe.next_le

theorem Safe.step_create {s : Sys} {i : Nat} {c : Call} {suffix : String} (more : List Entry)
    (safe : Safe ds fs0 s) (found : s.calls[i]? = some c) (atTempFile : c.pc = .tempFile)
    (absent : s.store.names.lookup (ds.tempFileName c.blobRef suffix) = none) :
    Safe ds fs0 ⟨s.store.create (ds.tempFileName c.blobRef suffix),
      s.calls.set i
        { c with pc := .copy (ds.tempFileName c.blobRef suffix) s.store.next c.source.reads [] 0 },
      s.record ++ more⟩ := by
  have unheld : ∀ j, ¬ Holds s.calls j (ds.tempFileName c.blobRef suffix) :=
    fun j ⟨c', found', held⟩ => by
      obtain ⟨file, own⟩ := (safe.safe j c' found').holding held
      rw [own.1] at absent; cases absent
  have holds_new : ∀ j temp, Holds (s.calls.set i { c with
      pc := .copy (ds.tempFileName c.blobRef suffix) s.store.next c.source.reads [] 0 }) j temp ↔
      (j = i ∧ temp = ds.tempFileName c.blobRef suffix) ∨ Holds s.calls j temp := by
    intro j temp
    rw [holds_set found]
    by_cases here : j = i
    · subst here; simp [Holds, Pc.holding, found, atTempFile, eq_comm]
    · simp [here]
  have keeps := keeps_create absent
  refine ⟨forall_set found ⟨⟨by simp, safe.next_le, suffix, rfl⟩, by simp⟩
      fun j c' _ found' => (safe.safe j c' found').keep (fun temp _ => keeps temp)
        (fun canon => canon.keep (keeps _)) more, ?_, ?_,
    fun blobRef q named => (safe.integrity blobRef q named).imp
      (fun same => by
        rw [Store.lookup_create, if_neg fun here => tempFileName_not_namesBlob _ _ _ (here ▸ named)]
        exact same)
      (fun verified => verified.keep (keeps q)),
    ?_, Nat.le_succ_of_le safe.next_le⟩
  · intro j k temp heldJ heldK
    rcases (holds_new j temp).mp heldJ with ⟨rfl, rfl⟩ | heldJ
    · rcases (holds_new k _).mp heldK with ⟨rfl, -⟩ | heldK
      · rfl
      · exact (unheld k heldK).elim
    · rcases (holds_new k temp).mp heldK with ⟨-, rfl⟩ | heldK
      · exact (unheld j heldJ).elim
      · exact safe.holders_unique j k temp heldJ heldK
  · intro j temp file q held named other
    simp only [Store.lookup_create] at named other
    rcases (holds_new j temp).mp held with ⟨-, rfl⟩ | held
    · obtain rfl := Option.some.inj ((if_pos rfl).symm.trans named)
      split at other
      · assumption
      · exact absurd (s.store.lookup_lt other) (lt_irrefl _)
    · have apart : temp ≠ ds.tempFileName c.blobRef suffix := fun same => unheld j (same ▸ held)
      simp only [apart, if_false] at named
      split at other
      · cases other; exact absurd (s.store.lookup_lt named) (lt_irrefl _)
      · exact safe.owned j temp file q held named other
  · intro file below
    simp [Function.update_noteq (lt_of_lt_of_le below safe.next_le).ne, safe.data_frame file below]

theorem Safe.step_write {s : Sys} {i : Nat} {c : Call} {pc : Pc} {temp : Path} {file : Inode}
    {bytes : List UInt8} (more : List Entry) (safe : Safe ds fs0 s) (found : s.calls[i]? = some c)
    (holding : c.pc.holding = some temp) (still : pc.holding = some temp)
    (own : OwnTemp ds fs0 s.store c.blobRef temp file)
    (safeAt : SafeAt ds fs0 (s.store.write file bytes) s.record i c.blobRef pc) :
    Safe ds fs0 ⟨s.store.write file bytes, s.calls.set i { c with pc }, s.record ++ more⟩ := by
  have same : pc.holding = c.pc.holding := still.trans holding.symm
  have holdsI : Holds s.calls i temp := ⟨c, found, holding⟩
  have keeps : ∀ q, q ≠ temp → Keeps s.store (s.store.write file bytes) q :=
    fun q other => keeps_write bytes fun named => other (safe.owned i temp file q holdsI own.1 named)
  refine ⟨forall_set found (by simpa using safeAt.keep (fun _ _ => keeps_self _ _) id more) ?_,
    fun j k temp heldJ heldK => safe.holders_unique j k temp
      ((holds_set_same found same).mp heldJ) ((holds_set_same found same).mp heldK),
    fun j temp file q held => safe.owned j temp file q ((holds_set_same found same).mp held),
    fun blobRef q named => (safe.integrity blobRef q named).imp_right
      fun verified => verified.keep (keeps q fun here => own.not_namesBlob blobRef (here ▸ named)),
    ?_, safe.next_le⟩
  · intro j c' other found'
    refine (safe.safe j c' found').keep (fun temp' held' => keeps temp' ?_)
      (fun canon => canon.keep (keeps _ (own.ne_blobFileName _).symm)) more
    rintro rfl
    exact other (safe.holders_unique j i temp' ⟨c', found', held'⟩ holdsI)
  · intro file' below
    simp [Function.update_noteq (lt_of_lt_of_le below own.2.1).ne, safe.data_frame file' below]

theorem Safe.step_rename {s : Sys} {i : Nat} {c : Call} {temp : Path} {written : Nat}
    {fs' : Store} (more : List Entry) (safe : Safe ds fs0 s) (found : s.calls[i]? = some c)
    (atRename : c.pc = .rename temp written)
    (renamed : s.store.rename temp (ds.blobFileName c.blobRef) = .ok fs')
    (safeAt : SafeAt ds fs0 fs' (s.record ++ more) i c.blobRef (.lstat temp written)) :
    Safe ds fs0 ⟨fs', s.calls.set i { c with pc := .lstat temp written }, s.record ++ more⟩ := by
  have before := safe.safe i c found
  rw [atRename] at before
  obtain ⟨file, own, -⟩ := before
  obtain ⟨file', found', sameData, sameNext, names⟩ := Store.rename_ok renamed
  obtain rfl : file = file' := Option.some.inj (own.1.symm.trans found')
  have holdsI : Holds s.calls i temp := ⟨c, found, by rw [atRename]; rfl⟩
  have holds_new : ∀ j q, Holds (s.calls.set i { c with pc := .lstat temp written }) j q ↔
      j ≠ i ∧ Holds s.calls j q := by
    intro j q
    rw [holds_set found]
    by_cases here : j = i <;> simp [here, Pc.holding]
  have others : ∀ j q, j ≠ i → Holds s.calls j q → q ≠ temp :=
    fun j q other held' same => other (safe.holders_unique j i q held' (same ▸ holdsI))
  have canonKeep : ∀ blobRef, Verified ds fs0 s.store blobRef (ds.blobFileName blobRef) →
      Verified ds fs0 fs' blobRef (ds.blobFileName blobRef) := by
    intro blobRef verified
    by_cases same : blobRef = c.blobRef
    · exact same ▸ safeAt.1
    · exact verified.keep (keeps_rename renamed (own.ne_blobFileName blobRef).symm
        fun equal => same (ds.blobFileName_injective _ _ equal))
  refine ⟨forall_set found safeAt ?_, ?_, ?_, ?_, ?_, sameNext ▸ safe.next_le⟩
  · intro j c' other found'
    refine (safe.safe j c' found').keep (fun q held' => ?_) (canonKeep c'.blobRef) more
    obtain ⟨_, ownQ⟩ := (safe.safe j c' found').holding held'
    exact keeps_rename renamed (others j q other ⟨c', found', held'⟩) (ownQ.ne_blobFileName _)
  · intro j k q heldJ heldK
    exact safe.holders_unique j k q ((holds_new j q).mp heldJ).2 ((holds_new k q).mp heldK).2
  · intro j q file'' q' heldQ named named'
    obtain ⟨other, heldQ⟩ := (holds_new j q).mp heldQ
    obtain ⟨c', found'', held'⟩ := heldQ
    obtain ⟨_, ownQ⟩ := (safe.safe j c' found'').holding held'
    have apart := others j q other ⟨c', found'', held'⟩
    simp only [names, ownQ.ne_blobFileName, apart, if_false] at named
    rw [names] at named'
    split at named'
    · cases named'
      exact absurd (safe.owned i temp file q holdsI own.1 named) apart
    · split at named'
      · cases named'
      · exact safe.owned j q file'' q' ⟨c', found'', held'⟩ named named'
  · intro blobRef q named
    by_cases canonical : q = ds.blobFileName c.blobRef
    · subst canonical
      rcases named with same | ⟨partition, mirror⟩
      · obtain rfl := ds.blobFileName_injective _ _ same
        exact .inr safeAt.1
      · exact (ds.blobFileName_ne_partitionBlobFileName _ _ _ mirror).elim
    · have notTemp : q ≠ temp := by rintro rfl; exact own.not_namesBlob blobRef named
      exact (safe.integrity blobRef q named).imp
        (fun same => by rw [names q, if_neg canonical, if_neg notTemp]; exact same)
        (fun verified => verified.keep (keeps_rename renamed notTemp canonical))
  · intro file'' below
    rw [sameData]
    exact safe.data_frame file'' below

theorem Safe.step_link {s : Sys} {i : Nat} {c : Call} {temp : Path} {size : Nat}
    {partition : Partition} {partitions : List Partition} {fs' : Store} (more : List Entry)
    (safe : Safe ds fs0 s) (found : s.calls[i]? = some c)
    (atLink : c.pc = .link temp size partition partitions)
    (linked : s.store.link (ds.blobFileName c.blobRef) (ds.partitionBlobFileName partition c.blobRef) =
      .ok fs') :
    Safe ds fs0 ⟨fs', s.calls.set i { c with pc := .mirror temp size partitions }, s.record ++ more⟩ := by
  have before := safe.safe i c found
  rw [atLink] at before
  obtain ⟨⟨file, canonical, fresh, hashOk⟩, renamedBefore⟩ := before
  obtain ⟨file', found', -, sameData, sameNext, names⟩ := Store.link_ok linked
  obtain rfl : file = file' := Option.some.inj (canonical.symm.trans found')
  have same : (Pc.mirror temp size partitions).holding = c.pc.holding := by rw [atLink]; rfl
  have keeps : ∀ q, q ≠ ds.partitionBlobFileName partition c.blobRef → Keeps s.store fs' q :=
    fun q other => keeps_link linked other
  have heldKeeps : ∀ (j : Nat) (c' : Call) (q : Path), s.calls[j]? = some c' →
      c'.pc.holding = some q → Keeps s.store fs' q := by
    intro j c' q found'' held'
    obtain ⟨_, ownQ⟩ := (safe.safe j c' found'').holding held'
    exact keeps q (ownQ.ne_partitionBlobFileName _ _)
  have canonKeeps : ∀ blobRef, Keeps s.store fs' (ds.blobFileName blobRef) :=
    fun blobRef => keeps _ (ds.blobFileName_ne_partitionBlobFileName _ _ _)
  refine ⟨forall_set found ?_ fun j c' _ found'' => (safe.safe j c' found'').keep
      (fun q held' => heldKeeps j c' q found'' held') (fun verified => verified.keep (canonKeeps _))
      more,
    fun j k q heldJ heldK => safe.holders_unique j k q
      ((holds_set_same found same).mp heldJ) ((holds_set_same found same).mp heldK), ?_, ?_,
    fun file below => sameData ▸ safe.data_frame file below, sameNext ▸ safe.next_le⟩
  · exact ⟨⟨file, by rw [names, if_neg (ds.blobFileName_ne_partitionBlobFileName _ _ _)]; exact canonical,
      fresh, by rw [sameData]; exact hashOk⟩, renamedBefore.append more⟩
  · intro j q file'' q' heldQ named named'
    obtain ⟨c', found'', held'⟩ := (holds_set_same found same).mp heldQ
    obtain ⟨_, ownQ⟩ := (safe.safe j c' found'').holding held'
    rw [names, if_neg (ownQ.ne_partitionBlobFileName _ _)] at named
    rw [names] at named'
    split at named'
    · cases named'
      exact (ownQ.ne_blobFileName c.blobRef
        (safe.owned j q file _ ⟨c', found'', held'⟩ named canonical).symm).elim
    · exact safe.owned j q file'' q' ⟨c', found'', held'⟩ named named'
  · intro blobRef q named
    by_cases mirror : q = ds.partitionBlobFileName partition c.blobRef
    · subst mirror
      rcases named with canonicalName | ⟨partition', mirrorName⟩
      · exact (ds.blobFileName_ne_partitionBlobFileName _ _ _ canonicalName.symm).elim
      · obtain ⟨-, rfl⟩ := ds.partitionBlobFileName_injective _ _ _ _ mirrorName
        exact .inr ⟨file, by simp [names], fresh, by rw [sameData]; exact hashOk⟩
    · exact (safe.integrity blobRef q named).imp
        (fun same => by rw [names q, if_neg mirror]; exact same)
        (fun verified => verified.keep (keeps q mirror))

theorem Safe.step_remove {s : Sys} {i : Nat} {c : Call} {temp : Path} {err : Error} {fs' : Store}
    (more : List Entry) (safe : Safe ds fs0 s) (found : s.calls[i]? = some c)
    (atCleanup : c.pc = .cleanup temp err) (removed : s.store.remove temp = .ok fs') :
    Safe ds fs0 ⟨fs', s.calls.set i { c with pc := .done (.error err) }, s.record ++ more⟩ := by
  have before := safe.safe i c found
  rw [atCleanup] at before
  obtain ⟨file, own⟩ := before
  obtain ⟨-, sameData, sameNext, names⟩ := Store.remove_ok removed
  have holdsI : Holds s.calls i temp := ⟨c, found, by rw [atCleanup]; rfl⟩
  have holds_new : ∀ j q, Holds (s.calls.set i { c with pc := .done (.error err) }) j q ↔
      j ≠ i ∧ Holds s.calls j q := by
    intro j q
    rw [holds_set found]
    by_cases here : j = i <;> simp [here, Pc.holding]
  have others : ∀ j q, j ≠ i → Holds s.calls j q → q ≠ temp :=
    fun j q other held' same => other (safe.holders_unique j i q held' (same ▸ holdsI))
  refine ⟨forall_set found trivial fun j c' other found' => (safe.safe j c' found').keep
      (fun q held' => keeps_remove removed (others j q other ⟨c', found', held'⟩))
      (fun verified => verified.keep (keeps_remove removed (own.ne_blobFileName _).symm)) more,
    fun j k q heldJ heldK => safe.holders_unique j k q ((holds_new j q).mp heldJ).2
      ((holds_new k q).mp heldK).2, ?_, ?_,
    fun file below => sameData ▸ safe.data_frame file below, sameNext ▸ safe.next_le⟩
  · intro j q file' q' heldQ named named'
    obtain ⟨other, heldQ⟩ := (holds_new j q).mp heldQ
    rw [names, if_neg (others j q other heldQ)] at named
    rw [names] at named'
    split at named'
    · cases named'
    · exact safe.owned j q file' q' heldQ named named'
  · intro blobRef q named
    have notTemp : q ≠ temp := by rintro rfl; exact own.not_namesBlob blobRef named
    exact (safe.integrity blobRef q named).imp
      (fun same => by rw [names q, if_neg notTemp]; exact same)
      (fun verified => verified.keep (keeps_remove removed notTemp))

/-- The invariant holds after every step, whatever fails, that leaves no call failed after its
`Rename`. -/
theorem Safe.step {s s' : Sys} {e : Event} (safe : Safe ds fs0 s) (committed : NoFailedCommit s')
    (stepped : s.step ds e = some s') : Safe ds fs0 s' := by
  obtain ⟨c, pc, ops, found, callStep, calls, record⟩ := Sys.step_eq_some ds stepped
  have committedHere := committed e.call { c with pc }
    (by rw [calls, List.getElem?_set_self (List.getElem?_eq_some_iff.mp found).1])
  obtain ⟨store, calls', record'⟩ := s'
  dsimp only at calls record callStep committedHere
  subst calls record
  rcases (safe.safe _ c found).step callStep with
    ⟨rfl, ⟨safeAt, holding⟩ | ⟨failing, renamed⟩⟩ | ⟨suffix, atTempFile, absent, rfl, rfl⟩ |
      ⟨temp, file, bytes, holding, still, own, rfl, safeAt⟩ |
      ⟨temp, written, atRename, renamed, rfl, safeAt⟩ |
      ⟨temp, size, partition, partitions, atLink, linked, rfl⟩ |
      ⟨temp, err, atCleanup, removed, rfl⟩
  · exact safe.step_local _ found safeAt holding
  · rw [committedHere (renamed.append _)] at failing
    cases failing
  · exact safe.step_create _ found atTempFile absent
  · exact safe.step_write _ found holding still own safeAt
  · exact safe.step_rename _ found atRename renamed safeAt
  · exact safe.step_link _ found atLink linked
  · exact safe.step_remove _ found atCleanup removed

end Safe

theorem Call.step_failing (ds : DiskStorage) {c : Call} {fs fs' : Store} {o : Outcome} {pc : Pc}
    {ops : List (Op × Option Errno)} (failing : c.pc.failing = true)
    (stepped : c.step ds fs o = some (pc, fs', ops)) : pc.failing = true := by
  obtain ⟨blobRef, source, partitions, pc₀⟩ := c
  cases pc₀ <;> simp only [Pc.failing, Bool.false_eq_true] at failing
  case cleanup temp err =>
    cases o <;> simp only [Call.step, Call.cleanup, reduceCtorEq] at stepped
    · split at stepped <;> obtain ⟨rfl, -, -⟩ := Prod.mk.inj (Option.some.inj stepped) <;> rfl
    · obtain ⟨rfl, -, -⟩ := Prod.mk.inj (Option.some.inj stepped); rfl
  case done => cases stepped

theorem NoFailedCommit.of_step (ds : DiskStorage) {s s' : Sys} {e : Event}
    (stepped : s.step ds e = some s') (committed : NoFailedCommit s') : NoFailedCommit s := by
  intro j c found renamed
  obtain ⟨c', pc, ops, found', callStep, calls, record⟩ := Sys.step_eq_some ds stepped
  have renamed' : RenamedBy s'.record j := record ▸ renamed.append _
  by_cases here : j = e.call
  · subst here
    rw [found] at found'
    cases found'
    have now := committed e.call { c with pc }
      (by rw [calls, List.getElem?_set_self (List.getElem?_eq_some_iff.mp found).1]) renamed'
    cases failing : c.pc.failing
    · rfl
    · rw [Call.step_failing ds failing callStep] at now
      cases now
  · exact committed j c (by rw [calls, List.getElem?_set_ne (Ne.symm here)]; exact found) renamed'

theorem NoFailedCommit.of_run (ds : DiskStorage) {s s' : Sys} {events : List Event}
    (ran : s.run ds events = some s') (committed : NoFailedCommit s') : NoFailedCommit s := by
  induction events generalizing s with
  | nil => cases ran; exact committed
  | cons e events ih =>
      obtain ⟨s₁, stepped, ran⟩ := Option.bind_eq_some.mp ran
      exact NoFailedCommit.of_step ds stepped (ih ran)

section Safe

variable {ds : DiskStorage} {fs0 : Store}

theorem Safe.run {s s' : Sys} {events : List Event} (safe : Safe ds fs0 s)
    (ran : s.run ds events = some s') (committed : NoFailedCommit s') : Safe ds fs0 s' := by
  induction events generalizing s with
  | nil => exact Option.some.inj ran ▸ safe
  | cons e events ih =>
      obtain ⟨s₁, stepped, ran⟩ := Option.bind_eq_some.mp ran
      exact ih (safe.step (NoFailedCommit.of_run ds ran committed) stepped) ran

theorem safe_init {calls : List Call} (fresh : ∀ c ∈ calls, c.pc = .start) :
    Safe ds fs0 (Sys.init fs0 calls) := by
  have unheld : ∀ j temp, ¬ Holds calls j temp := by
    rintro j temp ⟨c, found, held⟩
    rw [fresh c (List.getElem?_mem found)] at held
    cases held
  refine ⟨fun j c found => ?_, fun j _ temp held => (unheld j temp held).elim,
    fun j temp _ _ held => (unheld j temp held).elim, fun _ _ _ => .inl rfl, fun _ _ => rfl,
    le_refl _⟩
  rw [fresh c (List.getElem?_mem found)]
  trivial

end Safe

/-- In any run, until a call fails after its `Rename`, every canonical or mirror name holds what
it held before or bytes matching its blob. -/
theorem receiveBlob_names_verified_unless_failed_after_rename (ds : DiskStorage) (fs0 : Store)
    (calls : List Call) (fresh : ∀ c ∈ calls, c.pc = .start) {events : List Event} {s : Sys}
    (ran : (Sys.init fs0 calls).run ds events = some s) (committed : NoFailedCommit s) :
    ∀ blobRef q, NamesBlob ds blobRef q →
      s.store.contents q = fs0.contents q ∨
        ∃ bytes, s.store.contents q = some bytes ∧ ds.HashMatches blobRef bytes = true := by
  have safe := (safe_init fresh).run ran committed
  intro blobRef q named
  rcases safe.integrity blobRef q named with same | ⟨file, found, -, hashOk⟩
  · refine .inl ?_
    simp only [Store.contents, same]
    cases named : fs0.names.lookup q with
    | none => rfl
    | some file => simp [safe.data_frame file (fs0.lookup_lt named)]
  · exact .inr ⟨_, by simp [Store.contents, found], hashOk⟩

/-- A receive of `sampleBlob` with mirror `m` that succeeds, and one whose first `Write` fails,
interleaved. -/
def mixedEvents : List Event :=
  [⟨0, .ok⟩, ⟨1, .ok⟩, ⟨0, .named "1"⟩, ⟨1, .named "2"⟩, ⟨1, .failed ⟨28⟩ 0⟩] ++
    List.replicate 5 ⟨0, .ok⟩ ++ [⟨1, .ok⟩] ++ List.replicate 8 ⟨0, .ok⟩

def mixedRun : Sys :=
  ((Sys.init Store.empty [ReceiveBlob sampleBlob ⟨[[1], [2]], none⟩ ["m"],
    ReceiveBlob sampleBlob ⟨[[1], [2]], none⟩ []]).run sampleStorage mixedEvents).getD
    (Sys.init Store.empty [])

theorem mixed_run_names_verified :
    (mixedRun.store.contents (sampleStorage.blobFileName sampleBlob) =
        Store.empty.contents (sampleStorage.blobFileName sampleBlob) ∨
      ∃ bytes, mixedRun.store.contents (sampleStorage.blobFileName sampleBlob) = some bytes ∧
        sampleStorage.HashMatches sampleBlob bytes = true) ∧
    (mixedRun.store.contents (sampleStorage.partitionBlobFileName "m" sampleBlob) =
        Store.empty.contents (sampleStorage.partitionBlobFileName "m" sampleBlob) ∨
      ∃ bytes, mixedRun.store.contents (sampleStorage.partitionBlobFileName "m" sampleBlob) =
          some bytes ∧ sampleStorage.HashMatches sampleBlob bytes = true) :=
  have verified := @receiveBlob_names_verified_unless_failed_after_rename sampleStorage Store.empty
    [ReceiveBlob sampleBlob ⟨[[1], [2]], none⟩ ["m"], ReceiveBlob sampleBlob ⟨[[1], [2]], none⟩ []]
    (by simp [ReceiveBlob]) mixedEvents mixedRun rfl
    fun j c found renamed => by
      rcases j with _ | _ | j <;> cases found
      · rfl
      · exact absurd renamed (by decide)
  ⟨verified _ _ (.inl rfl), verified _ _ (.inr ⟨"m", rfl⟩)⟩

end Camlistore
