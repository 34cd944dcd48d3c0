import MethodSynthesis.Parameters.Basic

/-!
# Changes of a container as data

Items come and go by structural changes; a write reaches one item and leaves the structure alone.
-/

namespace MethodSynthesis

inductive ParametersChange where
  | add (item : Item)
  | remove (name : String)
  | replace (item : Item)
  | write (name : String) (write : ItemWrite)
  deriving DecidableEq

namespace Parameters

/-- Writes to the item of a name; without the item, or when the write fails, nothing changes. -/
def writeItem (p : Parameters) (name : String) (w : ItemWrite) : Parameters :=
  match p.find? name with
  | none => p
  | some item =>
      match item.write w with
      | .ok item => p.update name item
      | .error _ => p

def change (p : Parameters) : ParametersChange → Parameters
  | .add item => (p.addItem item).toOption.getD p
  | .remove name => (p.removeItem name).2
  | .replace item => (p.replaceItem item).2
  | .write name w => p.writeItem name w

def changeAll (p : Parameters) (changes : List ParametersChange) : Parameters :=
  changes.foldl change p

end Parameters

end MethodSynthesis
