import Mathlib.Data.List.AList

/-! # The filesystem under the blob root

A directory entry maps a path to an inode, and a file's bytes belong to its inode.  An open
`*os.File` keeps writing to its inode whatever later happens to the name it was opened under,
while `os.Rename`, `os.Link`, `os.Remove` and `os.Lstat` act on names: this split is what
`ReceiveBlob`'s cleanup by name depends on.  Directories are not entries of the store:
`os.MkdirAll` contributes only its error.  Inode numbers are handed out from `next`, and the
store carries the proof that every entry names an inode below it, so a new inode is never
already in use. -/

set_option autoImplicit false

namespace Camlistore

/-- A path, as the list of its components. -/
abbrev Path := List String

def joinPath (dir : Path) (name : String) : Path := dir ++ [name]

abbrev Inode := Nat

structure Errno where
  code : Nat
  deriving DecidableEq, Repr

def ENOENT : Errno := ⟨2⟩
def EEXIST : Errno := ⟨17⟩

def NamesBelow (names : AList (fun _ : Path => Inode)) (n : Inode) : Prop :=
  ∀ p i, names.lookup p = some i → i < n

theorem NamesBelow.insert {names : AList (fun _ : Path => Inode)} {n : Inode}
    (below : NamesBelow names n) (p : Path) {i : Inode} (fresh : i < n) :
    NamesBelow (names.insert p i) n := by
  intro q j found
  by_cases same : q = p
  · subst same
    rw [AList.lookup_insert] at found
    exact Option.some.inj found ▸ fresh
  · exact below q j (by rwa [AList.lookup_insert_ne same] at found)

theorem NamesBelow.erase {names : AList (fun _ : Path => Inode)} {n : Inode}
    (below : NamesBelow names n) (p : Path) : NamesBelow (names.erase p) n := by
  intro q j found
  by_cases same : q = p
  · subst same
    rw [AList.lookup_erase] at found
    cases found
  · exact below q j (by rwa [AList.lookup_erase_ne same] at found)

structure Store where
  names : AList (fun _ : Path => Inode)
  data : Inode → List UInt8
  next : Inode
  names_below : NamesBelow names next

namespace Store

def empty : Store := ⟨∅, fun _ => [], 0, fun p i found => by simp at found⟩

def contents (s : Store) (p : Path) : Option (List UInt8) := (s.names.lookup p).map s.data

/-- `open(p, O_RDWR|O_CREATE|O_EXCL)` on an absent name: a new empty inode. -/
def create (s : Store) (p : Path) : Store where
  names := s.names.insert p s.next
  data := Function.update s.data s.next []
  next := s.next + 1
  names_below := NamesBelow.insert (fun q j found => Nat.lt_succ_of_lt (s.names_below q j found))
    p (Nat.lt_succ_self _)

def write (s : Store) (i : Inode) (bytes : List UInt8) : Store :=
  { s with data := Function.update s.data i (s.data i ++ bytes) }

/-- `rename(2)`: the inode at `old` replaces whatever `new` named. -/
def rename (s : Store) (old new : Path) : Except Errno Store :=
  match found : s.names.lookup old with
  | none => .error ENOENT
  | some i => .ok { s with
      names := (s.names.erase old).insert new i
      names_below := (s.names_below.erase old).insert new (s.names_below old i found) }

/-- `link(2)`: a second name for the inode at `old`; `new` must be absent. -/
def link (s : Store) (old new : Path) : Except Errno Store :=
  match found : s.names.lookup old, s.names.lookup new with
  | none, _ => .error ENOENT
  | some _, some _ => .error EEXIST
  | some i, none => .ok { s with
      names := s.names.insert new i
      names_below := s.names_below.insert new (s.names_below old i found) }

def remove (s : Store) (p : Path) : Except Errno Store :=
  match s.names.lookup p with
  | none => .error ENOENT
  | some _ => .ok { s with names := s.names.erase p, names_below := s.names_below.erase p }

def lstat (s : Store) (p : Path) : Except Errno Nat :=
  match s.contents p with
  | none => .error ENOENT
  | some bytes => .ok bytes.length

@[simp] theorem lookup_create (s : Store) (p q : Path) :
    (s.create p).names.lookup q = if q = p then some s.next else s.names.lookup q := by
  by_cases same : q = p
  · subst same; simp [create, AList.lookup_insert]
  · simp [create, same, AList.lookup_insert_ne same]

@[simp] theorem data_create (s : Store) (p : Path) :
    (s.create p).data = Function.update s.data s.next [] := rfl

@[simp] theorem next_create (s : Store) (p : Path) : (s.create p).next = s.next + 1 := rfl

@[simp] theorem names_write (s : Store) (i : Inode) (bytes : List UInt8) :
    (s.write i bytes).names = s.names := rfl

@[simp] theorem data_write (s : Store) (i : Inode) (bytes : List UInt8) :
    (s.write i bytes).data = Function.update s.data i (s.data i ++ bytes) := rfl

@[simp] theorem next_write (s : Store) (i : Inode) (bytes : List UInt8) :
    (s.write i bytes).next = s.next := rfl

theorem lookup_lt (s : Store) {p : Path} {i : Inode} (found : s.names.lookup p = some i) :
    i < s.next :=
  s.names_below p i found

theorem rename_ok {s s' : Store} {old new : Path} (renamed : s.rename old new = .ok s') :
    ∃ i, s.names.lookup old = some i ∧ s'.data = s.data ∧ s'.next = s.next ∧
      ∀ q, s'.names.lookup q =
        if q = new then some i else if q = old then none else s.names.lookup q := by
  unfold rename at renamed
  split at renamed
  · cases renamed
  · rename_i i found
    cases renamed
    refine ⟨i, found, rfl, rfl, fun q => ?_⟩
    by_cases toNew : q = new
    · subst toNew; simp [AList.lookup_insert]
    · by_cases fromOld : q = old
      · subst fromOld; simp [toNew, AList.lookup_insert_ne toNew, AList.lookup_erase]
      · simp [toNew, fromOld, AList.lookup_insert_ne toNew, AList.lookup_erase_ne fromOld]

theorem rename_error {s : Store} {old new : Path} {e : Errno}
    (failed : s.rename old new = .error e) : s.names.lookup old = none ∧ e = ENOENT := by
  unfold rename at failed
  split at failed
  · cases failed; exact ⟨‹_›, rfl⟩
  · cases failed

theorem rename_of_lookup (s : Store) {old : Path} (new : Path) {i : Inode}
    (found : s.names.lookup old = some i) : ∃ s', s.rename old new = .ok s' := by
  unfold rename
  split
  · rename_i missing; rw [found] at missing; cases missing
  · exact ⟨_, rfl⟩

theorem link_ok {s s' : Store} {old new : Path} (linked : s.link old new = .ok s') :
    ∃ i, s.names.lookup old = some i ∧ s.names.lookup new = none ∧ s'.data = s.data ∧
      s'.next = s.next ∧
      ∀ q, s'.names.lookup q = if q = new then some i else s.names.lookup q := by
  unfold link at linked
  split at linked
  · cases linked
  · cases linked
  · rename_i i found absent
    cases linked
    refine ⟨i, found, absent, rfl, rfl, fun q => ?_⟩
    by_cases toNew : q = new
    · subst toNew; simp [AList.lookup_insert]
    · simp [toNew, AList.lookup_insert_ne toNew]

theorem link_error {s : Store} {old new : Path} {e : Errno}
    (failed : s.link old new = .error e) :
    (s.names.lookup old = none ∧ e = ENOENT) ∨ (s.names.lookup new ≠ none ∧ e = EEXIST) := by
  unfold link at failed
  split at failed
  · cases failed; exact .inl ⟨‹_›, rfl⟩
  · cases failed; exact .inr ⟨by simp [*], rfl⟩
  · cases failed

theorem remove_ok {s s' : Store} {p : Path} (removed : s.remove p = .ok s') :
    s.names.lookup p ≠ none ∧ s'.data = s.data ∧ s'.next = s.next ∧
      ∀ q, s'.names.lookup q = if q = p then none else s.names.lookup q := by
  unfold remove at removed
  split at removed
  · cases removed
  · cases removed
    refine ⟨by simp [*], rfl, rfl, fun q => ?_⟩
    by_cases same : q = p
    · subst same; simp [AList.lookup_erase]
    · simp [same, AList.lookup_erase_ne same]

theorem remove_error {s : Store} {p : Path} {e : Errno} (failed : s.remove p = .error e) :
    s.names.lookup p = none ∧ e = ENOENT := by
  unfold remove at failed
  split at failed
  · cases failed; exact ⟨‹_›, rfl⟩
  · cases failed

theorem lstat_eq (s : Store) (p : Path) :
    s.lstat p = match s.contents p with
      | none => .error ENOENT
      | some bytes => .ok bytes.length := rfl

end Store

end Camlistore
