import SqlForms.Proofs.Exchange.Forms
import SqlForms.Proofs.Exchange.Reading

/-! # Exchanged trees are kept

    The whole way of a tree through JSON: its JSON form, the text of the
    form, reading that text, and decoding what was read.  The reader passes
    over members that are not fields; the form of a tree has no others, so
    nothing is lost there.  It refuses what is nested too deep, which a tree
    can be.  What comes back is the tree, for every kind of node and value,
    exactly when its form stays within the limit, its doubles are finite and
    its leap seconds come where a text can tell them. -/

namespace SqlForms

open Json

/-! ## Every member is read -/

/-- Numbers have no members. -/
theorem Json.areKept_numbers (fields : Fields) (ns : List JsonNumber) :
    areKept fields (ns.map Json.number) = true := by
  induction ns with
  | nil => rfl
  | cons n ns ih => rw [List.map_cons, areKept, ih]; rfl

/-- Every member of an interval is one of its units. -/
theorem Calendar.Interval.isKept_toJson (i : Interval) :
    i.toJson.isKept Expr.jsonFields (some "interval") = true := by
  simp [toJson, isKept, membersKept, components, Fields.admits, Expr.jsonFields]

/-- An object of one member is kept when that is, under a key whose objects are read in full. -/
theorem Json.isKept_single {fields : Fields} {under : Option String} (hu : under.bind fields = none)
    {kind : String} {content : Json} (hc : content.isKept fields (some kind) = true) :
    (Json.object [(kind, content)]).isKept fields under = true := by
  simp [isKept, membersKept, Fields.admits, hu, hc]

namespace Value

mutual

/-- No member in the form of a value is passed over. -/
theorem isKept_toJson (v : Value) {under : Option String}
    (hu : under.bind Expr.jsonFields = none) : v.toJson.isKept Expr.jsonFields under = true := by
  cases v with
  | null => rfl
  | float x =>
      refine isKept_single hu ?_
      unfold floatToJson
      split <;> rfl
  | bytes bs =>
      refine isKept_single hu ?_
      have hbytes := areKept_numbers Expr.jsonFields (bs.map .ofByte)
      rwa [List.map_map] at hbytes
  | interval i => exact isKept_single hu i.isKept_toJson
  | array items => exact isKept_single hu (areKept_toJsonAll items)
  | _ => exact isKept_single hu rfl

/-- No member in the forms of values is passed over. -/
theorem areKept_toJsonAll (vs : List Value) :
    areKept Expr.jsonFields (toJsonAll vs) = true := by
  cases vs with
  | nil => rfl
  | cons v vs => rw [toJsonAll, areKept, isKept_toJson v rfl, areKept_toJsonAll vs]; rfl

end

end Value

namespace Expr

mutual

/-- No member in the form of a tree is passed over. -/
theorem isKept_toJson (e : Expr) : e.toJson.isKept jsonFields none = true := by
  cases e with
  | literal v => exact isKept_single rfl (v.isKept_toJson rfl)
  | quoted v => exact isKept_single rfl (v.isKept_toJson rfl)
  | operation tag es =>
      refine isKept_single rfl ?_
      simp [isKept, membersKept, Fields.admits, jsonFields, areKept_toJsonAll es]
  | placeholder p =>
      refine isKept_single rfl ?_
      rcases p with ⟨_ | name⟩ <;> simp [isKept, membersKept, Fields.admits, jsonFields]
  | list es => exact isKept_single rfl (areKept_toJsonAll es)
  | identifier name => exact isKept_single rfl rfl
  | keyword name => exact isKept_single rfl rfl

/-- No member in the forms of trees is passed over. -/
theorem areKept_toJsonAll (es : List Expr) : areKept jsonFields (toJsonAll es) = true := by
  cases es with
  | nil => rfl
  | cons e es => rw [toJsonAll, areKept, isKept_toJson e, areKept_toJsonAll es]; rfl

end

/-! ## There and back -/

/-- The text of a tree is read as the settled tree, if its doubles are finite and its form is not
    nested too deep; and otherwise it is refused. -/
theorem read?_write (e : Expr) :
    read? e.toJson.write =
      if e.isFinite ∧ e.toJson.depth ≤ nestingLimit then some e.settle else none := by
  rw [read?, readFields?_write e.isKept_toJson]
  by_cases hdepth : e.toJson.depth ≤ nestingLimit
  · rw [if_pos hdepth]
    show ofJson? .numbersOnly e.toJson = _
    rw [ofJson?_toJson]
    simp only [hdepth, and_true]
  · rw [if_neg hdepth, if_neg fun h => hdepth h.2]
    rfl

/-- **Trees survive their JSON form.**  The text of the JSON form of a tree is read back as the tree
    exactly when the doubles in the tree are finite, its leap seconds come after second 59 only, and
    the form is nested no deeper than a text from outside may be.  It is refused exactly when a
    double is not finite or the form is nested deeper. -/
theorem decode_encode (e : Expr) :
    (read? e.toJson.write = some e ↔
      e.isFinite ∧ e.isSettled ∧ e.toJson.depth ≤ nestingLimit) ∧
    (read? e.toJson.write = none ↔ ¬ (e.isFinite ∧ e.toJson.depth ≤ nestingLimit)) := by
  rw [read?_write, ← settle_eq_self_iff]
  by_cases h : e.isFinite ∧ e.toJson.depth ≤ nestingLimit
  · rw [if_pos h]
    simp [h]
  · rw [if_neg h]
    refine ⟨⟨fun hread => ?_, fun hall => absurd ⟨hall.1, hall.2.2⟩ h⟩, fun _ => h, fun _ => rfl⟩
    cases hread

/-- A row of hard values: the first day and a leap second, doubles at the ends of their range and
    the negative zero inside nested arrays, and texts that need escapes. -/
def hardRow : Expr :=
  .operation "row\n"
    [.literal (.timestamp ⟨⟨-262143, 2, 28, by decide, by decide, by decide, by decide⟩,
        ⟨23, 59, 59, 1500000000, by decide, by decide, by decide, by decide⟩⟩),
      .quoted (.array [.float ⟨0x8000000000000000⟩,
        .array [.float ⟨1⟩, .float ⟨0x7fefffffffffffff⟩, .null]]),
      .literal (.interval { years := -9223372036854775808, milliseconds := 1 }),
      .list [.placeholder {}, .placeholder { name := some "\"\\\x00" }, .literal (.bytes [0, 255])]]

/-- The row of hard values is kept. -/
theorem decode_encode_hardRow : read? hardRow.toJson.write = some hardRow :=
  (decode_encode hardRow).1.mpr ⟨by decide, by decide, by decide⟩

/-! ## Trees that are not kept -/

/-- A name inside so many lists of one item. -/
def nestedLists : Nat → Expr
  | 0 => .identifier "a"
  | n + 1 => .list [nestedLists n]

/-- Every list is an array inside an object, and the name is an object. -/
theorem depth_nestedLists (n : Nat) : (nestedLists n).toJson.depth = 2 * n + 1 := by
  induction n with
  | zero => rfl
  | succ n ih =>
      simp only [nestedLists, toJson, toJsonAll, depth, depthAll, depthMembers, ih]
      omega

/-- A time in the middle of the leap second after second 7. -/
def lateTime : Expr :=
  .literal (.time ⟨0, 0, 7, 1500000000, by decide, by decide, by decide, by decide⟩)

/-- **Finite doubles are not enough.**  A name inside 64 lists is refused, since its form has 129
    levels; and a leap second after second 7 comes back as second 8. -/
theorem bounds_needed :
    ((nestedLists 64).isFinite = true ∧ read? (nestedLists 64).toJson.write = none) ∧
      lateTime.isFinite = true ∧
      read? lateTime.toJson.write =
        some (.literal (.time ⟨0, 0, 8, 500000000, by decide, by decide, by decide, by decide⟩)) ∧
      read? lateTime.toJson.write ≠ some lateTime := by
  have hlate : read? lateTime.toJson.write = some lateTime.settle := by
    rw [read?_write, if_pos ⟨by decide, by decide⟩]
  refine ⟨⟨by decide, ?_⟩, by decide, hlate, ?_⟩
  · rw [read?_write, if_neg]
    rw [depth_nestedLists]
    exact fun h => absurd h.2 (by decide)
  · rw [hlate]
    exact fun h => absurd ((settle_eq_self_iff lateTime).mp (Option.some.inj h)) (by decide)

end Expr
end SqlForms
