import Std.Data.TreeMap
import SqlForms.Operator

/-! # Registries

    A registry finds an operator by its tag; tags are kept in order.  A tag
    that is not registered is a call of the function of that name, unless
    the registry is strict. -/

namespace SqlForms

/-- Operators by tag. -/
structure Registry where
  operators : Std.TreeMap String Operator
  /-- Whether a tag that is not registered is a function call. -/
  fallback : Bool := true

namespace Registry

/-- The registry without operators: every tag is a function call. -/
def empty : Registry := ⟨∅, true⟩

/-- The operator of a tag. -/
def get? (r : Registry) (tag : String) : Option Operator :=
  r.operators[tag]?

/-- Registers an operator, in place of the one under the same tag if there is one. -/
def insert (r : Registry) (tag : String) (o : Operator) : Registry :=
  { r with operators := r.operators.insert tag o }

/-- Registers operators in turn. -/
def insertAll (r : Registry) (table : List (String × Operator)) : Registry :=
  table.foldl (fun r row => r.insert row.1 row.2) r

/-- The same operators, with an error for every other tag. -/
def strict (r : Registry) : Registry :=
  { r with fallback := false }

/-- The registered tags in ascending order. -/
def tags (r : Registry) : List String :=
  r.operators.keys

/-- The number of registered operators. -/
def size (r : Registry) : Nat :=
  r.operators.size

/-- The structural text of a registry. -/
def describe (r : Registry) : String :=
  "Registry \x7b operators: " ++ toString r.size ++ ", fallback: " ++
    Value.boolText r.fallback ++ " \x7d"

/-! ## Layouts -/

/-- A call of the function named by a tag. -/
def call (tag : String) (es : List Expr) : Layout :=
  .concat [[.atom (.name tag), "("], .joined ", " es, [")"]]

/-- What is written for a tag that is not registered. -/
def unregistered (r : Registry) (tag : String) (es : List Expr) : Layout :=
  if r.fallback then call tag es else .refuse (.unknownOperator tag)

/-- The layout of an operation, continued at most `fuel` times. -/
def layoutUpTo (r : Registry) : Nat → String → List Expr → Layout
  | 0, tag, _ => .refuse (.definition (.endlessOperator tag))
  | fuel + 1, tag, es =>
      match r.get? tag with
      | none => r.unregistered tag es
      | some o =>
          match o.next? with
          | none => o.layout tag es
          | some next => o.layout tag es ++ r.layoutUpTo fuel next es

/-- The layout of an operation.  Operators that are continued more often than there are operators
    never end. -/
def layout (r : Registry) (tag : String) (es : List Expr) : Layout :=
  r.layoutUpTo (r.size + 1) tag es

/-- The layout of a tree. -/
def layoutOf (r : Registry) : Expr → Layout
  | .literal v => [.atom (.literal v)]
  | .quoted v => [.atom (.literal v)]
  | .identifier name => [.atom (.name name)]
  | .keyword name => [.atom (.name name)]
  | .placeholder p => [.atom (.slot p)]
  | .list items => .parenthesized items
  | .operation tag operands => r.layout tag operands

private theorem call_within (tag : String) (es : List Expr) : Layout.Within es (call tag es) :=
  fun _ h => .operand (by simpa [call] using h)

/-- However many operators hand their operands on, the layout mentions operands only. -/
theorem layoutUpTo_within (r : Registry) (fuel : Nat) (tag : String) (es : List Expr) :
    Layout.Within es (r.layoutUpTo fuel tag es) := by
  induction fuel generalizing tag with
  | zero => intro e h; simp [layoutUpTo] at h
  | succ fuel ih =>
      intro e h
      rw [layoutUpTo] at h
      split at h
      · unfold unregistered at h
        split at h
        · exact call_within tag es e h
        · simp at h
      · split at h
        · exact Operator.layout_within _ _ _ e h
        · rcases List.mem_append.mp h with h | h
          · exact Operator.layout_within _ _ _ e h
          · exact ih _ e h

/-- The trees of a layout are smaller than the tree it belongs to. -/
theorem sizeOf_lt_of_part_mem {r : Registry} {e x : Expr} (h : .part x ∈ r.layoutOf e) :
    sizeOf x < sizeOf e := by
  cases e with
  | list items =>
      have := List.sizeOf_lt_of_mem (Layout.part_mem_parenthesized.mp h)
      simp only [Expr.list.sizeOf_spec]
      omega
  | operation tag operands =>
      have := (r.layoutUpTo_within _ tag operands x h).sizeOf_lt
      simp only [Expr.operation.sizeOf_spec]
      omega
  | _ => simp [layoutOf] at h

/-! ## Atoms -/

/-- The atoms of a tree: its layout with the atoms of every operand in its place. -/
def atoms (r : Registry) (e : Expr) : List Atom :=
  (r.layoutOf e).attach.flatMap fun
    | ⟨.atom a, _⟩ => [a]
    | ⟨.part x, _⟩ => r.atoms x
termination_by e
decreasing_by exact sizeOf_lt_of_part_mem (by assumption)

/-- The atoms of a layout. -/
def atomsOf (r : Registry) (l : Layout) : List Atom :=
  l.flatMap fun
    | .atom a => [a]
    | .part x => r.atoms x

/-- The atoms of a tree are those of its layout. -/
theorem atoms_eq (r : Registry) (e : Expr) : r.atoms e = r.atomsOf (r.layoutOf e) := by
  rw [atoms, atomsOf]
  conv => rhs; rw [← List.attach_map_subtype_val (r.layoutOf e)]
  rw [List.flatMap_map]
  congr 1
  funext ⟨p, _⟩
  cases p <;> rfl

end Registry
end SqlForms
