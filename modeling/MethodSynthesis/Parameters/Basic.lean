import MethodSynthesis.Item.Basic

/-!
# Parameter containers

A container keeps items in order, one of each name, and counts its structural changes: items added,
removed and replaced. Writes to an item are no structural change.
-/

namespace MethodSynthesis

structure Parameters where
  name : String
  items : List Item
  version : Nat
  deriving DecidableEq

namespace Parameters

def new (name : String) : Parameters := ⟨name, [], 0⟩

def itemNames (p : Parameters) : List String := p.items.map Item.name

def find? (p : Parameters) (name : String) : Option Item :=
  p.items.find? fun item => item.name = name

def item? (p : Parameters) (position : Nat) : Option Item := p.items[position]?

def position? (p : Parameters) (name : String) : Option Nat :=
  p.items.findIdx? fun item => item.name = name

/-- Puts an item at the end unless its name is taken. -/
def addItem (p : Parameters) (item : Item) : Except ItemError Parameters :=
  match p.position? item.name with
  | some _ => .error (.duplicateName p.name item.name)
  | none => .ok { p with items := p.items ++ [item], version := p.version + 1 }

def removeItem (p : Parameters) (name : String) : Option Item × Parameters :=
  match p.position? name with
  | some position =>
      (p.items[position]?, { p with items := p.items.eraseIdx position, version := p.version + 1 })
  | none => (none, p)

/-- Puts an item in the place of the one of its name, or at the end. -/
def replaceItem (p : Parameters) (item : Item) : Option Item × Parameters :=
  match p.position? item.name with
  | some position =>
      (p.items[position]?,
        { p with items := p.items.set position item, version := p.version + 1 })
  | none => (none, { p with items := p.items ++ [item], version := p.version + 1 })

/-- Puts a changed item back into its place; the structure is as before. -/
def update (p : Parameters) (name : String) (item : Item) : Parameters :=
  match p.position? name with
  | some position => { p with items := p.items.set position item }
  | none => p

end Parameters

end MethodSynthesis
