import SqlForms.Value.Convert
import SqlForms.Proofs.Values.Faults
import SqlForms.Proofs.Values.Shapes

/-! # JSON values as arguments

    A JSON value becomes a value unless an object occurs in it, and a value
    that came from one always has a literal: its doubles are finite, and the
    decimals that stand for large words are decimal numbers.  So of the two
    steps, conversion and writing, only the first can fail, and it fails for
    the first object (`failure?_ofJson`).

    Places in a JSON value are paths.  A conversion keeps them, and so does
    the shape that is read off the literal (`exists_of_get?`): where the
    JSON value has an integer, the literal has its decimal text. -/

namespace SqlForms

open Decimal

/-! ## Places -/

/-- The value at a path: each step is the place of an item or of a member. -/
def Json.get? : Json → List Nat → Option Json
  | j, [] => some j
  | .array items, i :: path => items[i]?.bind (·.get? path)
  | .object members, i :: path => members[i]?.bind (·.2.get? path)
  | _, _ :: _ => none

/-- The shape at a path: each step is the place of an item. -/
def Shape.get? : Shape → List Nat → Option Shape
  | x, [] => some x
  | .array first rest, i :: path => (first :: rest)[i]?.bind (·.get? path)
  | _, _ :: _ => none

namespace Json

mutual

/-- The leaves of a value from left to right, at any depth of arrays. -/
def leaves : Json → List Json
  | .array items => leavesAll items
  | j => [j]

/-- The leaves of values from left to right. -/
def leavesAll : List Json → List Json
  | [] => []
  | j :: js => leaves j ++ leavesAll js

end

/-- Whether a value is an object. -/
def isObject : Json → Bool
  | .object _ => true
  | _ => false

private theorem leaves_object (members : List (String × Json)) :
    (object members).leaves = [.object members] :=
  rfl

private theorem leavesAll_eq_flatMap (js : List Json) : leavesAll js = js.flatMap leaves := by
  induction js with
  | nil => rw [leavesAll]; rfl
  | cons j js ih => rw [leavesAll, ih]; rfl

/-- An object at any depth stands in an object that is a leaf. -/
theorem exists_leaf_of_get? {j : Json} {path : List Nat} {members : List (String × Json)}
    (h : j.get? path = some (.object members)) : ∃ x ∈ j.leaves, x.isObject := by
  induction path generalizing j with
  | nil =>
      rw [get?] at h
      cases h
      exact ⟨_, leaves_object _ ▸ List.mem_singleton_self _, rfl⟩
  | cons i path ih =>
      cases j with
      | array items =>
          obtain ⟨item, hitem, h⟩ := Option.bind_eq_some_iff.mp h
          obtain ⟨x, hx, hobject⟩ := ih h
          refine ⟨x, ?_, hobject⟩
          rw [leaves, leavesAll_eq_flatMap]
          exact List.mem_flatMap.mpr ⟨item, List.mem_of_getElem? hitem, hx⟩
      -- What is inside an object is no leaf, but the object is.
      | object members => exact ⟨_, leaves_object _ ▸ List.mem_singleton_self _, rfl⟩
      | _ => cases h

mutual

/-- A leaf stands at some path. -/
theorem exists_get?_of_mem_leaves (j : Json) {x : Json} (h : x ∈ j.leaves) :
    ∃ path, j.get? path = some x := by
  by_cases hj : ∃ items, j = .array items
  · obtain ⟨items, rfl⟩ := hj
    rw [leaves] at h
    obtain ⟨i, item, path, hitem, hx⟩ := exists_get?_of_mem_leavesAll items h
    exact ⟨i :: path, Option.bind_eq_some_iff.mpr ⟨item, hitem, hx⟩⟩
  · rw [leaves.eq_2 j fun items h => hj ⟨items, h⟩, List.mem_singleton] at h
    exact ⟨[], h ▸ by rw [get?]⟩

/-- A leaf of items is found along a path from one of them. -/
theorem exists_get?_of_mem_leavesAll (js : List Json) {x : Json} (h : x ∈ leavesAll js) :
    ∃ (i : Nat) (item : Json) (path : List Nat), js[i]? = some item ∧ item.get? path = some x := by
  cases js with
  | nil => rw [leavesAll] at h; cases h
  | cons j js =>
      rw [leavesAll] at h
      rcases List.mem_append.mp h with h | h
      · obtain ⟨path, hx⟩ := exists_get?_of_mem_leaves j h
        exact ⟨0, j, path, rfl, hx⟩
      · obtain ⟨i, item, path, hitem, hx⟩ := exists_get?_of_mem_leavesAll js h
        exact ⟨i + 1, item, path, hitem, hx⟩

end

end Json

namespace Value

/-! ## When a conversion fails -/

/-- The error of a leaf, if it is an object. -/
def objectFault? : Json → Option Error
  | .object members => some (.objectArgument (.object members))
  | _ => none

mutual

/-- A JSON value fails for the first of its leaves that is an object. -/
theorem failure?_ofJson (j : Json) : failure? (ofJson j) = j.leaves.findSome? objectFault? := by
  cases j with
  | array items =>
      rw [ofJson, Json.leaves, ← failure?_ofJsonItems items]
      exact failure?_map Value.array (ofJsonItems items)
  | _ => rfl

/-- Items are refused for the first object among their leaves. -/
theorem failure?_ofJsonItems (items : List Json) :
    failure? (ofJsonItems items) = (Json.leavesAll items).findSome? objectFault? := by
  cases items with
  | nil => rw [ofJsonItems, Json.leavesAll]; rfl
  | cons item items =>
      rw [ofJsonItems, Json.leavesAll, List.findSome?_append, ← failure?_ofJson item,
        ← failure?_ofJsonItems items]
      exact failure?_pair _ _ _

end

/-- Only an object is refused, and the error names it. -/
theorem objectFault?_eq_some {j : Json} {e : Error} :
    objectFault? j = some e ↔
      ∃ members, j = .object members ∧ e = .objectArgument (.object members) := by
  constructor
  · intro h
    cases j with
    | object members => exact ⟨members, rfl, (Option.some.inj h).symm⟩
    | _ => cases h
  · rintro ⟨members, rfl, rfl⟩
    rfl

private theorem objectFault?_eq_none {j : Json} : objectFault? j = none ↔ j.isObject = false := by
  cases j <;> simp [objectFault?, Json.isObject]

/-! ## What a conversion gives -/

/-- A word is written as its decimal text, whether it is kept as an integer or as a decimal. -/
theorem sql_ofInt (d : Dialect) (n : Int) : (ofInt n).sql d = .ok (toString n) := by
  rw [ofInt]
  split
  next h =>
    show Except.ok (toString (Int64.ofInt n).toInt) = _
    rw [Int64.toInt_ofInt_of_le (by omega) (by omega)]
  next =>
    have hn : isDecimalNumber (toString n) = true := (isDecimalNumber_iff _).mpr (numeral_int n)
    rw [sql, literal, if_pos hn]
    rfl

/-- An integer has the shape of its decimal text. -/
theorem shape_ofInt (n : Int) : (ofInt n).shape = .number (toString n) := by
  rw [ofInt]
  split
  next h => rw [shape, Int64.toInt_ofInt_of_le (by omega) (by omega)]
  next => rw [shape]

/-- Whether a value has no raw text and no bad number. -/
def IsSound (v : Value) : Prop :=
  v.rawFree ∧ v.scalars.findSome? fault? = none

/-- An integer is sound, also where it becomes a decimal number. -/
theorem isSound_ofInt (n : Int) : (ofInt n).IsSound := by
  -- What is written in one dialect has no bad number.
  have hnone : failure? ((ofInt n).sql .standard) = none := by
    rw [sql_ofInt]
    rfl
  rw [failure?_sql] at hnone
  refine ⟨?_, hnone⟩
  rw [ofInt]
  split <;> rfl

mutual

/-- What comes from a JSON value has no raw text and no bad number. -/
theorem isSound_ofJson (j : Json) {v : Value} (h : ofJson j = .ok v) : v.IsSound := by
  cases j with
  | number n =>
      cases h
      cases n with
      | integer n ge lt => exact isSound_ofInt n
      | float x finite =>
          refine ⟨rfl, ?_⟩
          show [Value.float x].findSome? fault? = none
          rw [List.findSome?_singleton, fault?, if_pos finite]
  | array items =>
      rw [ofJson] at h
      obtain ⟨vs, hvs, h⟩ := bind_eq_ok.mp h
      cases h
      obtain ⟨hraw, hscalars⟩ := isSound_ofJsonItems items hvs
      exact ⟨by rwa [rawFree], by rwa [scalars]⟩
  | object members => cases h
  | _ => cases h; exact ⟨rfl, rfl⟩

/-- What items become is sound. -/
theorem isSound_ofJsonItems (items : List Json) {vs : List Value} (h : ofJsonItems items = .ok vs) :
    rawFreeAll vs ∧ (scalarsAll vs).findSome? fault? = none := by
  cases items with
  | nil =>
      rw [ofJsonItems] at h
      cases h
      exact ⟨rfl, rfl⟩
  | cons item items =>
      rw [ofJsonItems] at h
      obtain ⟨v, hv, h⟩ := bind_eq_ok.mp h
      obtain ⟨vs, hvs, h⟩ := bind_eq_ok.mp h
      cases h
      obtain ⟨hraw, hscalars⟩ := isSound_ofJson item hv
      obtain ⟨hraws, hrest⟩ := isSound_ofJsonItems items hvs
      rw [rawFreeAll, scalarsAll, List.findSome?_append, hscalars, hrest]
      exact ⟨by rw [hraw, hraws]; rfl, rfl⟩

end

/-! ## Places are kept -/

/-- The items of an array are converted one by one. -/
theorem getElem?_ofJsonItems {items : List Json} {vs : List Value} (h : ofJsonItems items = .ok vs)
    {i : Nat} {item : Json} (hi : items[i]? = some item) :
    ∃ v, ofJson item = .ok v ∧ vs[i]? = some v := by
  induction items generalizing vs i with
  | nil => cases hi
  | cons first items ih =>
      rw [ofJsonItems] at h
      obtain ⟨v, hv, h⟩ := bind_eq_ok.mp h
      obtain ⟨vs, hvs, h⟩ := bind_eq_ok.mp h
      cases h
      cases i with
      | zero =>
          cases hi
          exact ⟨v, hv, rfl⟩
      | succ i => exact ih hvs hi

/-- At the place of a part of a JSON value stands the shape of what the part is converted to. -/
theorem exists_of_get? {j x : Json} {v : Value} (h : ofJson j = .ok v) {path : List Nat}
    (hx : j.get? path = some x) : ∃ u, ofJson x = .ok u ∧ v.shape.get? path = some u.shape := by
  induction path generalizing j v with
  | nil =>
      rw [Json.get?] at hx
      cases hx
      exact ⟨v, h, by rw [Shape.get?]⟩
  | cons i path ih =>
      cases j with
      | array items =>
          obtain ⟨item, hitem, hx⟩ := Option.bind_eq_some_iff.mp hx
          rw [ofJson] at h
          obtain ⟨vs, hvs, h⟩ := bind_eq_ok.mp h
          cases h
          obtain ⟨w, hw, hi⟩ := getElem?_ofJsonItems hvs hitem
          obtain ⟨u, hu, hshape⟩ := ih hw hx
          refine ⟨u, hu, ?_⟩
          -- An array with an item at some place is not empty.
          cases vs with
          | nil => cases hi
          | cons v vs =>
              have hitems : (shape v :: shapes vs)[i]? = some w.shape := by
                rw [shapes_eq_map, ← List.map_cons, List.getElem?_map, hi]
                rfl
              rw [shape, Shape.get?, hitems]
              exact hshape
      | object members => cases h
      | _ => cases hx

end Value

namespace Shape

variable {d : Dialect}

private theorem infix_restChars {x : Shape} {xs : List Shape} (h : x ∈ xs) :
    x.chars d <:+: restChars d xs := by
  induction xs with
  | nil => cases h
  | cons y ys ih =>
      rw [restChars]
      refine List.infix_cons (List.infix_cons ?_)
      rcases List.mem_cons.mp h with rfl | h
      · exact List.infix_append_of_infix_left List.infix_rfl
      · exact List.infix_append_of_infix_right (ih h)

/-- What stands at a place of a shape appears in its characters. -/
theorem infix_chars {x y : Shape} {path : List Nat} (h : x.get? path = some y) :
    y.chars d <:+: x.chars d := by
  induction path generalizing x with
  | nil =>
      rw [get?] at h
      cases h
      exact List.infix_rfl
  | cons i path ih =>
      cases x with
      | array first rest =>
          obtain ⟨item, hitem, h⟩ := Option.bind_eq_some_iff.mp h
          refine (ih h).trans ?_
          rw [chars]
          refine List.infix_append_of_infix_right (List.infix_cons ?_)
          rcases List.mem_cons.mp (List.mem_of_getElem? hitem) with rfl | hmem
          · exact List.infix_append_of_infix_left List.infix_rfl
          · exact List.infix_append_of_infix_right (infix_restChars hmem)
      | _ => cases h

end Shape

namespace Value

/-- A JSON value is a value exactly when there is no object along any path. -/
theorem exists_ofJson_iff (j : Json) :
    (∃ v, ofJson j = .ok v) ↔ ∀ path members, j.get? path ≠ some (.object members) := by
  rw [← failure?_eq_none, failure?_ofJson, List.findSome?_eq_none_iff]
  constructor
  · intro h path members hpath
    obtain ⟨x, hx, hobject⟩ := Json.exists_leaf_of_get? hpath
    rw [objectFault?_eq_none.mp (h x hx)] at hobject
    cases hobject
  · intro h x hx
    cases x with
    | object members =>
        obtain ⟨path, hpath⟩ := j.exists_get?_of_mem_leaves hx
        exact absurd hpath (h path members)
    | _ => rfl

/-- **Every JSON value without objects has a literal.**  A JSON value becomes a value exactly if no
    object occurs in it, and otherwise fails for the first object from left to right.  What it
    becomes has a literal in every dialect; read back, the literal has the decimal text of each
    integer in its place, the text of the same word, signed or unsigned. -/
theorem ofJson_has_literal (j : Json) :
    ((∃ v, ofJson j = .ok v) ↔ ∀ path members, j.get? path ≠ some (.object members)) ∧
    (∀ e, ofJson j = .error e ↔ ∃ before members after,
      j.leaves = before ++ .object members :: after ∧ (∀ x ∈ before, x.isObject = false) ∧
        e = .objectArgument (.object members)) ∧
    (∀ o : Json, (Error.objectArgument o).message =
      unserializable o.describe "objects have no SQL literal form") ∧
    ∀ v d, ofJson j = .ok v → ∃ s x, v.sql d = .ok s ∧ Shape.read? d s = some x ∧
      ∀ path n ge lt, j.get? path = some (.number (.integer n ge lt)) →
        x.get? path = some (.number (toString n)) ∧ (toString n).toList <:+: s.toList ∧
          (∀ i : Int64, i.toInt = n → (toValue i).sql d = .ok (toString n)) ∧
          ∀ u : UInt64, u.toNat = n → (toValue u).sql d = .ok (toString n) := by
  refine ⟨exists_ofJson_iff j, fun e => ?_, fun _ => rfl, fun v d h => ?_⟩
  · rw [← failure?_eq_some, failure?_ofJson, List.findSome?_eq_some_iff]
    constructor
    · rintro ⟨before, x, after, hj, hx, hbefore⟩
      obtain ⟨members, rfl, rfl⟩ := objectFault?_eq_some.mp hx
      exact ⟨before, members, after, hj,
        fun y hy => objectFault?_eq_none.mp (hbefore y hy), rfl⟩
    · rintro ⟨before, members, after, hj, hbefore, rfl⟩
      exact ⟨before, _, after, hj, rfl, fun y hy => objectFault?_eq_none.mpr (hbefore y hy)⟩
  · obtain ⟨hraw, hscalars⟩ := isSound_ofJson j h
    obtain ⟨s, hs⟩ := failure?_eq_none.mp ((failure?_sql d v).trans hscalars)
    refine ⟨s, v.shape, hs, read?_sql hraw hs, fun path n ge lt hpath => ?_⟩
    -- The value of the integer stands in the shape along the path it had in the JSON value.
    obtain ⟨u, hu, hplace⟩ := exists_of_get? h hpath
    have hshape : u.shape = .number (toString n) := by
      rw [← Except.ok.inj hu]
      exact shape_ofInt n
    rw [hshape] at hplace
    refine ⟨hplace, ?_, ?_, ?_⟩
    · rw [toList_sql hs]
      exact Shape.infix_chars hplace
    · rintro i rfl
      rfl
    · rintro u rfl
      exact sql_ofInt d u.toNat

/-- The least signed and the greatest unsigned word, at different depths. -/
theorem ofJson_has_literal_words :
    let j : Json := .array [.number (.integer (-0x8000000000000000) (by decide) (by decide)),
      .array [.null, .number (.integer 0xffffffffffffffff (by decide) (by decide))]]
    ∃ v s x, ofJson j = .ok v ∧ v.sql .standard = .ok s ∧ Shape.read? .standard s = some x ∧
      x.get? [0] = some (.number "-9223372036854775808") ∧
      x.get? [1, 1] = some (.number "18446744073709551615") := by
  intro j
  obtain ⟨s, x, hs, hx, hplace⟩ := (ofJson_has_literal j).2.2.2 _ .standard rfl
  exact ⟨_, s, x, rfl, hs, hx, (hplace [0] _ _ _ rfl).1, (hplace [1, 1] _ _ _ rfl).1⟩

end Value
end SqlForms
