import ObjectBoundary.Collection
import ObjectBoundary.Object.Script
import ObjectBoundary.Tasks.Container

/-!
# Managed objects

Every object has a count of the references to it and a payload. Handles own references, and so do
the payloads of other objects. When the last reference to an object goes, its payload is dropped and
the references in it are given back in turn; this ends, because a dropped payload owns nothing any
more. An object is never used again after that, but its number stays taken.

Counts are natural numbers here and 32-bit signed integers in the program. What is said of counts,
and of objects that are destroyed when theirs reaches zero, is said of runs in which no object ever
has more than 2147483647 references.
-/

namespace ObjectBoundary

inductive Payload where
  | text (value : String)
  | collection (content : Collection)
  | task (content : Task)
  | project (content : Project Ref)
  | manager (content : Manager Ref)
  | scripted (content : Scripted)
  deriving Inhabited

namespace Payload

/-- The references that a payload owns, with repetitions. -/
def refs : Payload → List Ref
  | .text _ | .task _ => []
  | .collection content => content.refs
  | .project content => content.tasks
  | .manager content => content.projects
  | .scripted content => content.refs

end Payload

structure Object where
  tag : Tag
  count : Nat
  /-- What the object is; `none` once it has been destroyed. -/
  payload : Option Payload
  deriving Inhabited

namespace Object

def refs (object : Object) : List Ref :=
  match object.payload with
  | some payload => payload.refs
  | none => []

end Object

structure Heap where
  /-- The objects, each at its number. -/
  objects : List Object := []
  created : Nat := 0
  destroyed : Nat := 0
  deriving Inhabited

namespace Heap

def object? (heap : Heap) (ref : Ref) : Option Object := heap.objects[ref.number]?

/-- The payload of an object that has not been destroyed. -/
def payload? (heap : Heap) (ref : Ref) : Option Payload :=
  match heap.object? ref with
  | some object => object.payload
  | none => none

/-- The number of references to an object. -/
def count (heap : Heap) (ref : Ref) : Nat :=
  match heap.object? ref with
  | some object => object.count
  | none => 0

def setObject (heap : Heap) (ref : Ref) (object : Object) : Heap :=
  { heap with objects := heap.objects.set ref.number object }

def retain (heap : Heap) (ref : Ref) : Heap :=
  match heap.object? ref with
  | some object => heap.setObject ref { object with count := object.count + 1 }
  | none => heap

def retainAll (heap : Heap) (refs : List Ref) : Heap := refs.foldl retain heap

def destroy (heap : Heap) (ref : Ref) (object : Object) : Heap :=
  { heap.setObject ref { object with count := 0, payload := none } with
    destroyed := heap.destroyed + 1 }

/-- The number of references that objects own together. -/
def owned (objects : List Object) : Nat := (objects.flatMap Object.refs).length

theorem owned_set (objects : List Object) (n : Nat) (old new : Object)
    (h : objects[n]? = some old) :
    owned (objects.set n new) + old.refs.length = owned objects + new.refs.length := by
  induction objects generalizing n with
  | nil => simp at h
  | cons head rest ih =>
    cases n with
    | zero =>
      simp only [List.getElem?_cons_zero, Option.some.injEq] at h
      simp only [owned, List.set_cons_zero, List.flatMap_cons, List.length_append, h]
      omega
    | succ n =>
      have := ih n (by simpa using h)
      simp only [owned, List.set_cons_succ, List.flatMap_cons, List.length_append] at *
      omega

/-- Gives back one reference for each member of a list, and destroys every object that loses its
last one. -/
def releaseAll (heap : Heap) (refs : List Ref) : Heap :=
  match refs with
  | [] => heap
  | ref :: rest =>
    match _found : heap.object? ref with
    | none => heap.releaseAll rest
    | some object =>
      if object.count = 1 then (heap.destroy ref object).releaseAll (object.refs ++ rest)
      else (heap.setObject ref { object with count := object.count - 1 }).releaseAll rest
termination_by owned heap.objects + refs.length
decreasing_by
  · simp only [List.length_cons]; omega
  · have := owned_set heap.objects ref.number object
      { object with count := 0, payload := none } _found
    simp only [Object.refs, List.length_nil] at this
    simp only [destroy, setObject, List.length_append, List.length_cons]
    simp only [Object.refs]
    omega
  · have := owned_set heap.objects ref.number object
      { object with count := object.count - 1 } _found
    simp only [Object.refs] at this
    simp only [setObject, List.length_cons]
    omega

def release (heap : Heap) (ref : Ref) : Heap := heap.releaseAll [ref]

/-- Destroys an object to which there is no reference. -/
def collect (heap : Heap) (ref : Ref) : Heap :=
  match heap.object? ref with
  | some object =>
    if object.count = 0 ∧ object.payload.isSome then
      (heap.destroy ref object).releaseAll object.refs
    else heap
  | none => heap

/-- Makes an object to which there is no reference yet. It owns the references in its payload. -/
def create (heap : Heap) (tag : Tag) (payload : Payload) : Ref × Heap :=
  let fresh : Object := ⟨tag, 0, some payload⟩
  let grown : Heap :=
    { heap with objects := heap.objects ++ [fresh], created := heap.created + 1 }
  (⟨heap.objects.length, tag⟩, grown.retainAll payload.refs)

def setPayload (heap : Heap) (ref : Ref) (payload : Payload) : Heap :=
  match heap.object? ref with
  | some object => heap.setObject ref { object with payload := some payload }
  | none => heap

/-- Gives an object another payload. The new references are taken before the old ones are given
back. -/
def replace (heap : Heap) (ref : Ref) (payload : Payload) : Heap :=
  match heap.object? ref with
  | some object =>
    ((heap.retainAll payload.refs).setPayload ref payload).releaseAll object.refs
  | none => heap

end Heap

end ObjectBoundary
