import MethodSynthesis.Table.Basic

/-!
# Type hierarchies

A hierarchy declares direct bases of types, cycles and undeclared bases allowed. The supertypes of a
type are collected from a list of names still to be looked at; every name is expanded once, so the
number of declared bases bounds the work.
-/

namespace MethodSynthesis

structure TypeHierarchy where
  declared : Table String (List String) := {}
  deriving DecidableEq

namespace TypeHierarchy

def empty : TypeHierarchy := {}

def contains (h : TypeHierarchy) (name : String) : Bool := h.declared.contains name

/-- The direct bases of a type; an undeclared type has none. -/
def bases (h : TypeHierarchy) (name : String) : List String := (h.declared.get? name).getD []

def addBase (bases : List String) (base : String) : List String :=
  if base ∈ bases then bases else bases ++ [base]

/-- Declares a type with more bases; what was declared before stays. -/
def declare (h : TypeHierarchy) (name : String) (bases : List String) : TypeHierarchy :=
  ⟨h.declared.insert name (bases.foldl addBase (h.bases name))⟩

theorem bases_declare (h : TypeHierarchy) (name other : String) (bases : List String) :
    (h.declare name bases).bases other =
      if other = name then bases.foldl addBase (h.bases name) else h.bases other := by
  by_cases hn : other = name <;> simp [TypeHierarchy.bases, declare, Table.get?_insert, hn]

theorem contains_declare (h : TypeHierarchy) (name other : String) (bases : List String) :
    (h.declare name bases).contains other = (other = name || h.contains other) := by
  by_cases hn : other = name <;> simp [contains, declare, Table.contains, Table.get?_insert, hn]

theorem mem_foldl_addBase (added known : List String) (base : String) :
    base ∈ added.foldl addBase known ↔ base ∈ known ∨ base ∈ added := by
  induction added generalizing known with
  | nil => simp
  | cons first rest ih =>
      simp only [List.foldl_cons, ih, addBase, List.mem_cons]
      by_cases h : first ∈ known
      · simp only [h, if_true]
        constructor
        · rintro (hb | hb)
          · exact Or.inl hb
          · exact Or.inr (Or.inr hb)
        · rintro (hb | rfl | hb)
          · exact Or.inl hb
          · exact Or.inl h
          · exact Or.inr hb
      · simp [h, or_assoc]

def declareAll (h : TypeHierarchy) (declarations : List (String × List String)) : TypeHierarchy :=
  declarations.foldl (fun h (name, bases) => h.declare name bases) h

def extend (h other : TypeHierarchy) : TypeHierarchy := h.declareAll other.declared.entries

/-! ## Supertypes -/

def baseCount (h : TypeHierarchy) : Nat :=
  (h.declared.entries.flatMap Prod.snd).length

/-- Collects names until none is pending; the fuel bounds the names taken from the list. -/
def collect (h : TypeHierarchy) : Nat → List String → List String → List String
  | 0, _, seen => seen
  | _ + 1, [], seen => seen
  | fuel + 1, name :: pending, seen =>
      if name ∈ seen then collect h fuel pending seen
      else collect h fuel (h.bases name ++ pending) (name :: seen)

/-- The types reached by one or more steps to a base. On a cycle a type reaches itself. -/
def supertypes (h : TypeHierarchy) (name : String) : List String :=
  let pending := h.bases name
  collect h (pending.length + h.baseCount) pending []

def isSubtype (h : TypeHierarchy) (sub super : String) : Bool :=
  sub = super || super ∈ h.supertypes sub

end TypeHierarchy

end MethodSynthesis
