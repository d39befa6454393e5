import Mathlib.Data.List.Forall2

/-! Ordered forests, and memories that keep one by the links of a node to its first child and to its next
sibling. -/

namespace Forest

/-- A node and the trees below it, in their order. -/
inductive RoseTree (α : Type*) where
  | node (root : α) (children : List (RoseTree α))

variable {α β : Type*}

mutual

/-- A node in front of all that is below it. -/
def RoseTree.preorder : RoseTree α → List α
  | .node root children => root :: Forest.preorder children

/-- The trees of a forest, one behind the other. -/
def preorder : List (RoseTree α) → List α
  | [] => []
  | tree :: later => tree.preorder ++ preorder later

end

/-- What is stored at an address. -/
structure Cell (α β : Type*) where
  label : β
  child : Option α
  next : Option α

/-- An address at which nothing is stored has no cell. -/
abbrev Memory (α β : Type*) := α → Option (Cell α β)

/-- From a pointer on, the links of a memory are those of a forest of addresses. -/
inductive Holds (mem : Memory α β) : Option α → List (RoseTree α) → Prop where
  | null : Holds mem none []
  | node {address : α} {cell : Cell α β} {children later : List (RoseTree α)}
      (hcell : mem address = some cell) (hchild : Holds mem cell.child children)
      (hnext : Holds mem cell.next later) :
      Holds mem (some address) (.node address children :: later)

@[simp] theorem preorder_nil : preorder ([] : List (RoseTree α)) = [] := rfl

@[simp] theorem preorder_node (root : α) (children later : List (RoseTree α)) :
    preorder (.node root children :: later) = root :: (preorder children ++ preorder later) := rfl

/-- A forest hangs on a null pointer only when it is empty. -/
theorem Holds.eq_nil {mem : Memory α β} {forest : List (RoseTree α)} (h : Holds mem none forest) :
    forest = [] := by
  cases h
  rfl

/-- The first of a list that passes a test, with all that stands in front of it. -/
def FirstIn (P : α → Prop) (l : List α) (a : α) : Prop :=
  ∃ before behind, l = before ++ a :: behind ∧ P a ∧ ∀ other ∈ before, ¬ P other

theorem find?_eq_some_iff_firstIn {test : α → Bool} {l : List α} {a : α} :
    l.find? test = some a ↔ FirstIn (test · = true) l a := by
  rw [List.find?_eq_some_iff_append, FirstIn]
  constructor
  · rintro ⟨ha, before, behind, hl, hbefore⟩
    exact ⟨before, behind, hl, ha, fun other hother => by simpa using hbefore other hother⟩
  · rintro ⟨before, behind, hl, ha, hbefore⟩
    exact ⟨ha, before, behind, hl, fun other hother => by simpa using hbefore other hother⟩

end Forest
