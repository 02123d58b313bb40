import Camlistore.Contract

/-! # The deferred `os.Remove` after the commit

`success` is set only after the mirror loop, so a call that fails after its `Rename` still runs
`os.Remove(tempFile.Name())`.  By then the name no longer names its file: `Rename` freed it, and
`ioutil.TempFile` of another call of the same blob may have taken it.  The cleanup removes by
name whatever is there, and a later `Rename` by name moves whatever is there.  Below, a retry
whose mirror link already exists, a second receive and a third, interrupted one of the same blob
meet with no environmental failure at all: the retry deletes the second call's temp file, the
second call then commits the third call's file, and the blob's canonical file ends up holding
the third call's partial bytes. -/

set_option autoImplicit false

namespace Camlistore

def retryingCall : Call := ReceiveBlob sampleBlob ⟨[[1], [2]], none⟩ ["m"]

def plainCall : Call := ReceiveBlob sampleBlob ⟨[[1], [2]], none⟩ []

def interruptedCall : Call :=
  ReceiveBlob sampleBlob ⟨[[9]], some (.ErrorString "unexpected EOF")⟩ []

def reuseStart : Sys := Sys.init successRun.store [retryingCall, plainCall, interruptedCall]

def reuseTemp : Path := sampleStorage.tempFileName sampleBlob "1"

/-- The retry commits and fails at its link; the plain call takes the freed temp name. -/
def reuseEvents₁ : List Event :=
  ⟨0, .ok⟩ :: ⟨0, .named "1"⟩ :: List.replicate 6 ⟨0, .ok⟩ ++ [⟨1, .ok⟩, ⟨1, .named "1"⟩] ++
    List.replicate 3 ⟨0, .ok⟩

def reuseState₁ : Sys := (reuseStart.run sampleStorage reuseEvents₁).getD reuseStart

def reuseState₂ : Sys := (reuseState₁.step sampleStorage ⟨0, .ok⟩).getD reuseStart

def reuseEvents₃ : List Event := [⟨2, .ok⟩, ⟨2, .named "1"⟩] ++ List.replicate 6 ⟨1, .ok⟩

def reuseState₃ : Sys := (reuseState₂.run sampleStorage reuseEvents₃).getD reuseStart

def reuseEvents₄ : List Event := List.replicate 3 ⟨2, .ok⟩ ++ List.replicate 2 ⟨1, .ok⟩

def reuseState₄ : Sys := (reuseState₃.run sampleStorage reuseEvents₄).getD reuseStart

/-- With no environmental failure, the retry's deferred `os.Remove` deletes the temp file the
plain call created and is still writing to. -/
theorem deferred_remove_deletes_other_calls_temp_file :
    reuseStart.run sampleStorage reuseEvents₁ = some reuseState₁ ∧
      (∀ e ∈ reuseEvents₁, e.outcome.isFailure = false) ∧
      reuseState₁.calls.map Call.pc =
        [.cleanup reuseTemp (.LinkError "link" (sampleStorage.blobFileName sampleBlob)
          (sampleStorage.partitionBlobFileName "m" sampleBlob) EEXIST),
         .copy reuseTemp 2 [[1], [2]] [] 0, .start] ∧
      reuseState₁.store.names.lookup reuseTemp = some 2 ∧
      reuseState₁.step sampleStorage ⟨0, .ok⟩ = some reuseState₂ ∧
      reuseState₂.store.names.lookup reuseTemp = none ∧
      reuseState₂.record.getLast? = some ⟨0, .Remove reuseTemp, none⟩ := by
  refine ⟨rfl, by decide, rfl, rfl, rfl, rfl, rfl⟩

/-- With no environmental failure, every call fails, and the blob's canonical file, put there by
the plain call's `Rename`, holds the interrupted call's byte, which does not hash to the blob. -/
theorem name_reuse_commits_unverified_bytes :
    reuseStart.run sampleStorage (reuseEvents₁ ++ ⟨0, .ok⟩ :: reuseEvents₃ ++ reuseEvents₄) =
        some reuseState₄ ∧
      (∀ e ∈ reuseEvents₁ ++ ⟨0, .ok⟩ :: reuseEvents₃ ++ reuseEvents₄,
        e.outcome.isFailure = false) ∧
      ⟨1, .Rename reuseTemp (sampleStorage.blobFileName sampleBlob), none⟩ ∈ reuseState₄.record ∧
      reuseState₄.calls.map Call.pc =
        [.done (.error (.LinkError "link" (sampleStorage.blobFileName sampleBlob)
          (sampleStorage.partitionBlobFileName "m" sampleBlob) EEXIST)),
         .done (.error (.ErrorString "Written size didn't match.")),
         .done (.error (.ErrorString "unexpected EOF"))] ∧
      reuseState₄.store.contents (sampleStorage.blobFileName sampleBlob) = some [9] ∧
      sampleStorage.HashMatches sampleBlob [9] = false := by
  refine ⟨rfl, by decide, by decide, rfl, rfl, by decide⟩

end Camlistore
