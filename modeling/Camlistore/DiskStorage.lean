import Camlistore.Store

/-! # Blob references and the localdisk naming scheme

`ReceiveBlob` reaches outside `receive.go` for the storage's paths (`paths.go`), for the digest
functions of package `blobref` and for `blobserver.DefaultPartition`.  None of them is among
the sources, so a `DiskStorage` takes them as fields, together with the properties of the
naming scheme that the receive path relies on: canonical and mirror names are injective and
apart, and no `ioutil.TempFile` name of the shard directory is one of them. -/

set_option autoImplicit false

namespace Camlistore

structure BlobRef where
  hashName : String
  digest : String
  deriving DecidableEq, Repr

structure SizedBlobRef where
  BlobRef : BlobRef
  Size : Nat
  deriving DecidableEq, Repr

abbrev Partition := String

structure Layout where
  blobDirectoryName : BlobRef → Path
  blobFileName : BlobRef → Path
  blobPartitionDirectoryName : Partition → BlobRef → Path
  partitionBlobFileName : Partition → BlobRef → Path
  BlobFileBaseName : BlobRef → String
  /-- The digest functions of package `blobref`, by hash name. -/
  hashSum : String → List UInt8 → String
  DefaultPartition : Partition

/-- `ioutil.TempFile(hashedDirectory, BlobFileBaseName(blobRef)+".tmp")` names its file
`filepath.Join(dir, prefix+suffix)` for a suffix of its choosing. -/
def Layout.tempFileName (ds : Layout) (blobRef : BlobRef) (suffix : String) : Path :=
  joinPath (ds.blobDirectoryName blobRef) (ds.BlobFileBaseName blobRef ++ ".tmp" ++ suffix)

def Layout.HashMatches (ds : Layout) (blobRef : BlobRef) (written : List UInt8) : Bool :=
  ds.hashSum blobRef.hashName written == blobRef.digest

structure DiskStorage extends Layout where
  blobFileName_injective : ∀ a b, blobFileName a = blobFileName b → a = b
  partitionBlobFileName_injective :
    ∀ p q a b, partitionBlobFileName p a = partitionBlobFileName q b → p = q ∧ a = b
  blobFileName_ne_partitionBlobFileName : ∀ a p b, blobFileName a ≠ partitionBlobFileName p b
  tempFileName_ne_blobFileName :
    ∀ a suffix b, toLayout.tempFileName a suffix ≠ blobFileName b
  tempFileName_ne_partitionBlobFileName :
    ∀ a suffix p b, toLayout.tempFileName a suffix ≠ partitionBlobFileName p b

/-- A naming scheme with the required properties, whose digest is the bytes themselves. -/
def sampleStorage : DiskStorage where
  blobDirectoryName b := ["d", b.hashName, b.digest]
  blobFileName b := ["d", b.hashName, b.digest, b.digest]
  blobPartitionDirectoryName p b := ["p", p, b.hashName, b.digest]
  partitionBlobFileName p b := ["p", p, b.hashName, b.digest, b.digest]
  BlobFileBaseName b := b.digest
  hashSum _ bytes := String.mk (bytes.map fun byte => Char.ofNat byte.toNat)
  DefaultPartition := ""
  blobFileName_injective a b same := by
    cases a; cases b; simp_all
  partitionBlobFileName_injective p q a b same := by
    cases a; cases b; simp_all
  blobFileName_ne_partitionBlobFileName a p b := by simp
  tempFileName_ne_blobFileName a suffix b same := by
    simp only [Layout.tempFileName, joinPath, List.cons_append, List.nil_append,
      List.cons.injEq] at same
    obtain ⟨-, -, digest, longer, -⟩ := same
    have four : ".tmp".length = 4 := rfl
    have := congrArg String.length longer
    simp only [String.length_append, ← digest, four] at this
    omega
  tempFileName_ne_partitionBlobFileName a suffix p b := by simp [Layout.tempFileName, joinPath]

end Camlistore
