import Gitwork.Error
import Gitwork.Payload.Id

/-! # The registry of payloads

    An arena of slots.  A slot that is emptied gets the next generation, so
    an id issued earlier for it no longer fits, and goes on a stack of free
    slots that is used before the arena grows.  Generations are 32-bit words
    and wrap. -/

namespace Gitwork

/-- A place for one entry. -/
structure Slot (α : Type) where
  generation : UInt32
  entry : Option α
deriving Repr

/-- Slots, and the indices of the empty ones, last freed first. -/
structure Registry (α : Type) where
  slots : List (Slot α)
  free : List UInt32
deriving Repr

namespace Registry

variable {α : Type}

def empty : Registry α := ⟨[], []⟩

/-- The number of entries. -/
def size (r : Registry α) : Nat := r.slots.countP (·.entry.isSome)

/-- The entry of an id, if the id fits the generation of its slot. -/
def get? (r : Registry α) (id : PayloadId) : Option α := do
  let slot ← r.slots[id.index.toNat]?
  if slot.generation = id.generation then slot.entry else none

/-- Adds a slot at the end; there are at most 2^32 of them. -/
def grow (r : Registry α) (a : α) : Except Error (PayloadId × Registry α) :=
  if r.slots.length < UInt32.size then
    .ok (.pack (.ofNat r.slots.length) 0, { r with slots := r.slots ++ [⟨0, some a⟩] })
  else .error .registryFull

/-- Puts an entry into the slot that was freed last, else into a new one. -/
def insert (r : Registry α) (a : α) : Except Error (PayloadId × Registry α) :=
  match r.free with
  | [] => r.grow a
  | i :: rest =>
    match r.slots[i.toNat]? with
    | some slot =>
      .ok (.pack i slot.generation,
        ⟨r.slots.set i.toNat { slot with entry := some a }, rest⟩)
    | none => grow { r with free := rest } a

/-- Empties the slot of a live id and returns what was in it. -/
def remove (r : Registry α) (id : PayloadId) : Option α × Registry α :=
  match r.slots[id.index.toNat]? with
  | none => (none, r)
  | some slot =>
    if slot.generation = id.generation then
      match slot.entry with
      | none => (none, r)
      | some a =>
        (some a, ⟨r.slots.set id.index.toNat ⟨slot.generation + 1, none⟩, id.index :: r.free⟩)
    else (none, r)

/-- Replaces the entry of a live id. -/
def modify (r : Registry α) (id : PayloadId) (f : α → α) : Registry α :=
  match r.slots[id.index.toNat]? with
  | none => r
  | some slot =>
    if slot.generation = id.generation then
      { r with slots := r.slots.set id.index.toNat { slot with entry := slot.entry.map f } }
    else r

end Registry

end Gitwork
