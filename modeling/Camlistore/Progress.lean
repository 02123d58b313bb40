import Camlistore.Contract
import Mathlib.Data.Set.Finite.Basic
import Mathlib.Algebra.Order.Ring.Nat

/-! # Every run is finite

A call that has not returned can always take a step in which no filesystem call fails: the store
is finite, and the model's `ioutil.TempFile` may settle on any free suffix.  Each step lowers the
call's rank, a bound on the statements left, so every interleaving of any number of calls is
finite. -/

set_option autoImplicit false

namespace Camlistore

section Names
variable (ds : DiskStorage) (blobRef : BlobRef)

def longTempFileName (n : Nat) : Path := ds.tempFileName blobRef ⟨List.replicate n 'x'⟩

theorem longTempFileName_injective : Function.Injective (longTempFileName ds blobRef) := by
  intro n m same
  simp only [longTempFileName, Layout.tempFileName, joinPath, List.append_cancel_left_eq,
    List.cons.injEq, and_true] at same
  have data := congrArg String.data same
  simp only [String.data_append, List.append_cancel_left_eq] at data
  simpa using congrArg List.length data

theorem exists_absent_tempFileName (fs : Store) :
    ∃ suffix, fs.names.lookup (ds.tempFileName blobRef suffix) = none := by
  obtain ⟨_, ⟨n, rfl⟩, absent⟩ :=
    (Set.infinite_range_of_injective (longTempFileName_injective ds blobRef)).exists_not_mem_finset
      fs.names.keys.toFinset
  exact ⟨_, AList.lookup_eq_none.mpr fun mem => absent (List.mem_toFinset.mpr (AList.mem_keys.mp mem))⟩

end Names

namespace Call

variable (ds : DiskStorage)

theorem exists_step (c : Call) (fs : Store) (running : ∀ result, c.pc ≠ .done result) :
    ∃ o, o.isFailure = false ∧ c.step ds fs o ≠ none := by
  rcases c with ⟨blobRef, source, mirrorPartitions, pc⟩
  cases pc with
  | tempFile =>
      obtain ⟨suffix, absent⟩ := exists_absent_tempFileName ds blobRef fs
      exact ⟨.named suffix, rfl, by simp [step, tempFile, absent]⟩
  | copy temp file reads =>
      cases reads <;> refine ⟨.ok, rfl, ?_⟩ <;> simp only [step, copy] <;> try split
      all_goals simp
  | rename => exact ⟨.ok, rfl, by simp only [step, rename]; split <;> simp⟩
  | lstat => exact ⟨.ok, rfl, by simp only [step, lstat]; split <;> (try split) <;> simp⟩
  | mirror _ _ partitions => cases partitions <;> exact ⟨.ok, rfl, by simp [step, mirror]⟩
  | link => exact ⟨.ok, rfl, by simp only [step, link]; split <;> simp⟩
  | notify _ partitions => cases partitions <;> exact ⟨.ok, rfl, by simp [step, notify]⟩
  | cleanup => exact ⟨.ok, rfl, by simp only [step, cleanup]; split <;> simp⟩
  | done result => exact absurd rfl (running result)
  | _ => exact ⟨.ok, rfl, by simp only [step, mkdirAll, sync, close]; (try split) <;> simp⟩

def rank (c : Call) : Nat :=
  let partitions := c.mirrorPartitions.length
  match c.pc with
  | .start => c.source.reads.length + 3 * partitions + 10
  | .tempFile => c.source.reads.length + 3 * partitions + 9
  | .copy _ _ reads _ _ => reads.length + 3 * partitions + 8
  | .sync _ _ _ => 3 * partitions + 7
  | .close _ _ _ => 3 * partitions + 6
  | .rename _ _ => 3 * partitions + 5
  | .lstat _ _ => 3 * partitions + 4
  | .mirror _ _ rest => 2 * rest.length + partitions + 3
  | .link _ _ _ rest => 2 * rest.length + partitions + 4
  | .notify _ rest => rest.length + 1
  | .cleanup _ _ => 1
  | .done _ => 0

theorem step_rank_lt {c : Call} {fs fs' : Store} {o : Outcome} {pc : Pc}
    {ops : List (Op × Option Errno)} (stepped : c.step ds fs o = some (pc, fs', ops)) :
    { c with pc }.rank < c.rank := by
  rcases c with ⟨blobRef, source, mirrorPartitions, pc₀⟩
  cases pc₀ <;> cases o <;>
    simp only [step, mkdirAll, tempFile, copy, sync, close, rename, lstat, mirror, link, notify,
      cleanup, reduceCtorEq] at stepped <;>
    (repeat' split at stepped) <;>
    simp only [Option.some.injEq, Prod.mk.injEq, reduceCtorEq] at stepped <;>
    obtain ⟨rfl, -, -⟩ := stepped <;> simp only [rank, List.length_cons] <;> omega

end Call

namespace Sys

variable (ds : DiskStorage)

def rank (s : Sys) : Nat := (s.calls.map Call.rank).sum

theorem sum_rank_set_lt {calls : List Call} {i : Nat} {c : Call} {pc : Pc}
    (found : calls[i]? = some c) (lower : ({ c with pc } : Call).rank < c.rank) :
    ((calls.set i { c with pc }).map Call.rank).sum < (calls.map Call.rank).sum := by
  induction calls generalizing i with
  | nil => simp at found
  | cons head tail ih =>
      cases i with
      | zero =>
          obtain rfl : head = c := by simpa using found
          simpa using lower
      | succ i => simpa using ih (by simpa using found)

theorem step_rank_lt {s s' : Sys} {e : Event} (stepped : s.step ds e = some s') :
    s'.rank < s.rank := by
  obtain ⟨c, pc, ops, found, callStep, calls, -⟩ := step_eq_some ds stepped
  rw [rank, calls]
  exact sum_rank_set_lt found (Call.step_rank_lt ds callStep)

theorem run_length_le {s s' : Sys} {events : List Event} (ran : s.run ds events = some s') :
    events.length + s'.rank ≤ s.rank := by
  induction events generalizing s with
  | nil => cases ran; simp
  | cons e events ih =>
      obtain ⟨s₁, stepped, ran⟩ := Option.bind_eq_some.mp ran
      have lower := step_rank_lt ds stepped
      have rest := ih ran
      simp only [List.length_cons]
      omega

theorem exists_step {s : Sys} {i : Nat} {c : Call} (found : s.calls[i]? = some c)
    (running : ∀ result, c.pc ≠ .done result) :
    ∃ o, o.isFailure = false ∧ s.step ds ⟨i, o⟩ ≠ none := by
  obtain ⟨o, ok, stepped⟩ := c.exists_step ds s.store running
  obtain ⟨⟨pc, store, ops⟩, stepped⟩ := Option.ne_none_iff_exists'.mp stepped
  exact ⟨o, ok, by simp [step, found, stepped]⟩

/-- Where no failure-free step is left, every call has returned. -/
theorem returned_of_stuck {s : Sys}
    (stuck : ∀ e : Event, e.outcome.isFailure = false → s.step ds e = none) :
    ∀ c ∈ s.calls, ∃ result, c.pc = .done result := by
  intro c mem
  by_contra running
  push_neg at running
  obtain ⟨i, found⟩ := List.mem_iff_getElem?.mp mem
  obtain ⟨o, ok, stepped⟩ := exists_step ds found running
  exact stepped (stuck ⟨i, o⟩ ok)

theorem restart_set {calls : List Call} {i : Nat} {c : Call} {pc : Pc}
    (found : calls[i]? = some c) :
    (calls.set i { c with pc }).map (fun c => { c with pc := .start }) =
      calls.map fun c => { c with pc := .start } := by
  ext j : 1
  rw [List.getElem?_map, List.getElem?_map, List.getElem?_set]
  split
  · subst_vars; simp [(List.getElem?_eq_some_iff.mp found).1, found]
  · rfl

/-- A run moves the calls' counters and nothing else of them. -/
theorem restart_calls_run {s s' : Sys} {events : List Event} (ran : s.run ds events = some s') :
    s'.calls.map (fun c => { c with pc := .start }) = s.calls.map fun c => { c with pc := .start } := by
  induction events generalizing s with
  | nil => cases ran; rfl
  | cons e events ih =>
      obtain ⟨s₁, stepped, ran⟩ := Option.bind_eq_some.mp ran
      obtain ⟨c, pc, ops, found, -, calls, -⟩ := step_eq_some ds stepped
      rw [ih ran, calls, restart_set found]

theorem exists_blobRef_of_run {s s' : Sys} {events : List Event} (ran : s.run ds events = some s')
    {c : Call} (mem : c ∈ s'.calls) : ∃ c₀ ∈ s.calls, c₀.blobRef = c.blobRef := by
  have restarted := List.mem_map_of_mem (fun c => { c with pc := .start }) mem
  rw [restart_calls_run ds ran] at restarted
  obtain ⟨c₀, mem₀, same⟩ := List.mem_map.mp restarted
  have blob := congrArg Call.blobRef same
  exact ⟨c₀, mem₀, blob⟩

end Sys

/-- Every interleaving of `ReceiveBlob` calls, whatever fails, is finite: a call runs at most
`|reads| + 3 |mirrorPartitions| + 10` steps. -/
theorem receiveBlob_runs_are_bounded (ds : DiskStorage) (fs : Store) (calls : List Call)
    (fresh : ∀ c ∈ calls, c.pc = .start) {events : List Event} {s' : Sys}
    (ran : (Sys.init fs calls).run ds events = some s') :
    events.length ≤
      (calls.map fun c => c.source.reads.length + 3 * c.mirrorPartitions.length + 10).sum := by
  have bound := Sys.run_length_le ds ran
  have start : (Sys.init fs calls).rank =
      (calls.map fun c => c.source.reads.length + 3 * c.mirrorPartitions.length + 10).sum := by
    simp only [Sys.rank, Sys.init]
    congr 1
    exact List.map_congr_left fun c mem => by simp [Call.rank, fresh c mem]
  omega

theorem success_run_is_bounded :
    successEvents.length ≤ ([2 + 3 * 1 + 10] : List Nat).sum :=
  receiveBlob_runs_are_bounded sampleStorage Store.empty
    [ReceiveBlob sampleBlob ⟨[[1], [2]], none⟩ ["m"]] (by simp [ReceiveBlob]) rfl

end Camlistore
