import LiveShader.Uniform.Name
/-!
# Uniform.Table — one slot for every uniform

A slot keeps the value to upload and the location that the current program gave the uniform.  Values outlive
programs, locations do not: the table remembers for which link they were resolved.  A value of another shape than
the uniform's is refused, and the first refusal is kept.  The order in which a table goes through its slots is its own.
-/
namespace LiveShader
namespace Uniform

/-- Where a linked program keeps a uniform; negative for one it does not have. -/
structure Location where
  raw : Int
deriving DecidableEq, Repr

namespace Location

def absent : Location := ⟨-1⟩

instance : Inhabited Location := ⟨absent⟩

/-- All negative numbers stand for absence. -/
def ofRaw (raw : Int) : Location := if raw < 0 then absent else ⟨raw⟩

/-- The greatest location that can be told from absence. -/
def limit : Nat := 2147483647

/-- The location for a driver's answer; a number past 31 bits counts as absent. -/
def ofAnswer : Option Nat → Location
  | some n => if n ≤ limit then ⟨n⟩ else absent
  | none => absent

def isPresent (l : Location) : Bool := 0 ≤ l.raw

def index? (l : Location) : Option Nat := if l.isPresent then some l.raw.toNat else none

end Location

structure Slot where
  location : Location
  value : Value

/-- The slots of all uniforms, the order of going through them, and the link that the locations come from. -/
structure Table where
  slots : Vector Slot 16
  order : Order
  /-- The number of that link, of 64 bits in a running table and without a bound here: fewer than 2^64 links are
  assumed. -/
  resolvedFor : Option Nat
  refused : Option (Uniform × Value)

namespace Table

/-- Initial values and no locations. -/
def initial (order : Order := .declared) : Table where
  slots := Vector.ofFn fun i => ⟨.absent, ((all[i.val]?).getD default).initial⟩
  order
  resolvedFor := none
  refused := none

def slot (t : Table) (u : Uniform) : Slot := t.slots[u.index]

def value (t : Table) (u : Uniform) : Value := (t.slot u).value

def location (t : Table) (u : Uniform) : Location := (t.slot u).location

/-- Whether a value has the shape that its slot keeps. -/
def accepts (t : Table) (u : Uniform) (v : Value) : Bool := (t.value u).shape == v.shape

/-- Replaces a value by one of the same shape. -/
def set (t : Table) (u : Uniform) (v : Value) : Table :=
  if t.accepts u v then { t with slots := t.slots.set u.index { t.slot u with value := v } }
  else { t with refused := t.refused <|> some (u, v) }

def setAll (t : Table) (values : List (Uniform × Value)) : Table :=
  values.foldl (fun t (u, v) => t.set u v) t

def place (t : Table) (u : Uniform) (l : Location) : Table :=
  { t with slots := t.slots.set u.index { t.slot u with location := l } }

/-- Forgets every location and the link they came from. -/
def invalidate (t : Table) : Table :=
  { t with slots := t.slots.map fun s => { s with location := .absent }, resolvedFor := none }

@[simp] theorem slot_place (t : Table) (u v : Uniform) (l : Location) :
    (t.place u l).slot v = if u = v then { t.slot u with location := l } else t.slot v := by
  by_cases h : u = v
  · subst h; simp [slot, place]
  · have hi : u.index.val ≠ v.index.val := fun e => h (index_inj (Fin.ext e))
    simp [slot, place, h, hi]

@[simp] theorem slot_invalidate (t : Table) (u : Uniform) :
    t.invalidate.slot u = { t.slot u with location := .absent } := by
  simp [slot, invalidate]

theorem slot_set (t : Table) (u v : Uniform) (x : Value) (h : t.accepts u x = true) :
    (t.set u x).slot v = if u = v then { t.slot u with value := x } else t.slot v := by
  by_cases e : u = v
  · subst e; simp [slot, set, h]
  · have hi : u.index.val ≠ v.index.val := fun he => e (index_inj (Fin.ext he))
    simp [slot, set, h, e, hi]

theorem slot_initial (order : Order) (u : Uniform) : (initial order).slot u = ⟨.absent, u.initial⟩ := by
  simp [slot, initial, getElem_all_index]

end Table
end Uniform
end LiveShader
