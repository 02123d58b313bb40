import Camlistore.Receive

/-! # Concurrent calls over one store

Any number of `ReceiveBlob` calls share the store and the hubs.  An event names the call that
moves and the outcome of its filesystem call; a run is a list of events, so every interleaving
of the calls' steps and every failure pattern is some run.  The record is what an observer of
the filesystem calls and of `NotifyBlobReceived` would see: no step reads it. -/

set_option autoImplicit false

namespace Camlistore

/-- One line of the record: the call, what it asked for, and the errno if that failed. -/
structure Entry where
  call : Nat
  op : Op
  err : Option Errno
  deriving DecidableEq, Repr

namespace Entry

def notice (e : Entry) : Option (Partition × BlobRef) :=
  match e.op with
  | .NotifyBlobReceived partition blobRef => some (partition, blobRef)
  | _ => none

def linked (e : Entry) : Option Path :=
  match e.op, e.err with
  | .Link _ new, none => some new
  | _, _ => none

def renamed (e : Entry) : Option Path :=
  match e.op, e.err with
  | .Rename _ new, none => some new
  | _, _ => none

def removeFailed (e : Entry) : Bool :=
  match e.op, e.err with
  | .Remove _, some _ => true
  | _, _ => false

def closed (e : Entry) : Bool :=
  match e.op, e.err with
  | .Close _, none => true
  | _, _ => false

@[simp] theorem notice_mk (call : Nat) (op : Op) (err : Option Errno) :
    notice ⟨call, op, err⟩ = match op with
      | .NotifyBlobReceived partition blobRef => some (partition, blobRef)
      | _ => none := rfl

@[simp] theorem linked_mk (call : Nat) (op : Op) (err : Option Errno) :
    linked ⟨call, op, err⟩ = match op, err with
      | .Link _ new, none => some new
      | _, _ => none := rfl

@[simp] theorem renamed_mk (call : Nat) (op : Op) (err : Option Errno) :
    renamed ⟨call, op, err⟩ = match op, err with
      | .Rename _ new, none => some new
      | _, _ => none := rfl

@[simp] theorem removeFailed_mk (call : Nat) (op : Op) (err : Option Errno) :
    removeFailed ⟨call, op, err⟩ = match op, err with
      | .Remove _, some _ => true
      | _, _ => false := rfl

@[simp] theorem closed_mk (call : Nat) (op : Op) (err : Option Errno) :
    closed ⟨call, op, err⟩ = match op, err with
      | .Close _, none => true
      | _, _ => false := rfl

end Entry

def stamp (call : Nat) (ops : List (Op × Option Errno)) : List Entry :=
  ops.map fun op => ⟨call, op.1, op.2⟩

@[simp] theorem stamp_nil (call : Nat) : stamp call [] = [] := rfl

@[simp] theorem stamp_cons (call : Nat) (op : Op × Option Errno) (ops : List (Op × Option Errno)) :
    stamp call (op :: ops) = ⟨call, op.1, op.2⟩ :: stamp call ops := rfl

structure Sys where
  store : Store
  calls : List Call
  record : List Entry

structure Event where
  call : Nat
  outcome : Outcome

namespace Sys

def init (fs : Store) (calls : List Call) : Sys := ⟨fs, calls, []⟩

variable (ds : DiskStorage)

def step (s : Sys) (e : Event) : Option Sys := do
  let c ← s.calls[e.call]?
  let (pc, store, ops) ← c.step ds s.store e.outcome
  pure ⟨store, s.calls.set e.call { c with pc }, s.record ++ stamp e.call ops⟩

def run : Sys → List Event → Option Sys
  | s, [] => some s
  | s, e :: es => (s.step ds e).bind fun s' => s'.run es

@[simp] theorem run_nil (s : Sys) : s.run ds [] = some s := rfl

theorem run_cons (s : Sys) (e : Event) (es : List Event) :
    s.run ds (e :: es) = (s.step ds e).bind fun s' => s'.run ds es := rfl

theorem run_append (s : Sys) (es fs : List Event) :
    s.run ds (es ++ fs) = (s.run ds es).bind fun s' => s'.run ds fs := by
  induction es generalizing s with
  | nil => rfl
  | cons e es ih =>
      simp only [List.cons_append, run_cons]
      cases s.step ds e with
      | none => rfl
      | some s' => exact ih s'

theorem step_eq_some {s s' : Sys} {e : Event} (stepped : s.step ds e = some s') :
    ∃ c pc ops, s.calls[e.call]? = some c ∧ c.step ds s.store e.outcome = some (pc, s'.store, ops) ∧
      s'.calls = s.calls.set e.call { c with pc } ∧
      s'.record = s.record ++ stamp e.call ops := by
  simp only [step, Option.bind_eq_bind, Option.bind_eq_some, Option.pure_def,
    Option.some.injEq] at stepped
  obtain ⟨c, found, ⟨pc, store, ops⟩, stepped, rfl⟩ := stepped
  exact ⟨c, pc, ops, found, stepped, rfl, rfl⟩

end Sys

end Camlistore
