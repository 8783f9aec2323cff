import SqlForms.Expr.Exchange
import SqlForms.Proofs.Exchange.Calendar

/-! # Decoding the JSON form of a tree

    Decoding the JSON form of a tree gives the tree back, as long as the
    doubles in it are finite: a double that is not has no JSON number and
    is encoded as null, which is decoded as nothing.  Times come back as
    their texts are read, with no leap second but after second 59.  This
    holds whichever names for doubles the decoder admits, since encoding
    uses none of them. -/

namespace SqlForms

/-! ## Words and bytes -/

namespace JsonNumber

/-- The number of a signed word gives the word back. -/
theorem toInt64?_ofInt64 (n : Int64) : (ofInt64 n).toInt64? = some n := by
  have hlt : n.toInt < 0x8000000000000000 := Int64.toInt_lt n
  rw [ofInt64, toInt64?, if_pos hlt, Int64.ofInt_toInt]

/-- The number of a byte gives the byte back. -/
theorem toByte?_ofByte (b : UInt8) : (ofByte b).toByte? = some b := by
  have hlt := b.toNat_lt
  rw [ofByte, ofNat, toByte?, if_pos (by omega), Int.toNat_natCast, UInt8.ofNat_toNat]

end JsonNumber

/-! ## Intervals -/

/-- The seven units are looked up by name, so each comes back to its own place. -/
theorem Calendar.Interval.ofJson?_toJson (i : Interval) : ofJson? i.toJson = some i := by
  simp [toJson, ofJson?, components, field?, Json.int64?, JsonNumber.toInt64?_ofInt64, ofAmounts]

/-! ## Values -/

namespace Value

mutual

/-- Whether every double in a value is finite. -/
def isFinite : Value → Bool
  | .float x => x.isFinite
  | .array items => isFiniteAll items
  | _ => true

/-- Whether every double in values is finite. -/
def isFiniteAll : List Value → Bool
  | [] => true
  | v :: vs => v.isFinite && isFiniteAll vs

end

mutual

/-- A value with the times in it settled. -/
def settle : Value → Value
  | .time t => .time t.settle
  | .timestamp t => .timestamp t.settle
  | .array items => .array (settleAll items)
  | v => v

/-- Values with the times in them settled. -/
def settleAll : List Value → List Value
  | [] => []
  | v :: vs => v.settle :: settleAll vs

end

mutual

/-- Whether leap seconds in a value come after second 59 only. -/
def isSettled : Value → Bool
  | .time t => t.isSettled
  | .timestamp t => t.time.isSettled
  | .array items => isSettledAll items
  | _ => true

/-- Whether leap seconds in values come after second 59 only. -/
def isSettledAll : List Value → Bool
  | [] => true
  | v :: vs => v.isSettled && isSettledAll vs

end

mutual

/-- A value is settled when settling leaves it as it is. -/
theorem settle_eq_self_iff (v : Value) : v.settle = v ↔ v.isSettled = true := by
  cases v with
  | time t => simp only [settle, isSettled, Value.time.injEq, Calendar.Time.settle_eq_self_iff]
  | timestamp t =>
      simp only [settle, isSettled, Value.timestamp.injEq, Calendar.Timestamp.settle_eq_self_iff]
  | array items => simp only [settle, isSettled, Value.array.injEq, settleAll_eq_self_iff items]
  | _ => simp only [settle, isSettled]

/-- Values are settled when settling leaves them as they are. -/
theorem settleAll_eq_self_iff (vs : List Value) : settleAll vs = vs ↔ isSettledAll vs = true := by
  cases vs with
  | nil => simp only [settleAll, isSettledAll]
  | cons v vs =>
      simp only [settleAll, isSettledAll, List.cons.injEq, Bool.and_eq_true, settle_eq_self_iff v,
        settleAll_eq_self_iff vs]

end

/-- Bytes are decoded from their numbers. -/
theorem bytesOfJson?_map (bs : List UInt8) :
    bytesOfJson? (.array (bs.map fun b => .number (.ofByte b))) = some bs := by
  rw [bytesOfJson?, List.mapM_map]
  induction bs with
  | nil => rfl
  | cons b bs ih => simp [byteOfJson?, JsonNumber.toByte?_ofByte, ih]

mutual

/-- The settled value is decoded from the JSON form of a value if its doubles are finite, and
    otherwise nothing is. -/
theorem ofJsonForm?_toJson (names : FloatNames) (v : Value) :
    ofJsonForm? names v.toJson = if v.isFinite then some v.settle else none := by
  cases v with
  | array items =>
      rw [isFinite, settle, toJson, ofJsonForm?, ofJsonForms?_toJsonAll names items]
      cases isFiniteAll items <;> rfl
  | float x =>
      cases h : x.isFinite <;>
        simp [isFinite, settle, toJson, ofJsonForm?, scalarOfJson?, floatToJson, h,
          JsonNumber.toBinary64]
  | _ => simp [isFinite, settle, toJson, ofJsonForm?, scalarOfJson?, JsonNumber.toInt64?_ofInt64,
      bytesOfJson?_map, Calendar.Date.read?_text, Calendar.Time.read?_text,
      Calendar.Timestamp.read?_text, Calendar.Interval.ofJson?_toJson]

/-- Settled values are decoded from the JSON forms of values if all their doubles are finite. -/
theorem ofJsonForms?_toJsonAll (names : FloatNames) (vs : List Value) :
    ofJsonForms? names (toJsonAll vs) = if isFiniteAll vs then some (settleAll vs) else none := by
  cases vs with
  | nil => rfl
  | cons v vs =>
      rw [isFiniteAll, settleAll, toJsonAll, ofJsonForms?, ofJsonForm?_toJson names v,
        ofJsonForms?_toJsonAll names vs]
      cases v.isFinite <;> cases isFiniteAll vs <;> rfl

end

end Value

/-! ## Trees -/

/-- A placeholder is decoded from its object, named or not. -/
theorem Placeholder.ofJson?_object (p : Placeholder) :
    ofJson? (.object [("name", (p.name.map Json.string).getD .null)]) = some p := by
  rcases p with ⟨_ | name⟩ <;> simp [ofJson?, field?, Json.text?]

namespace Expr

mutual

/-- Whether every double in a tree is finite. -/
def isFinite : Expr → Bool
  | .literal v => v.isFinite
  | .quoted v => v.isFinite
  | .operation _ operands => isFiniteAll operands
  | .list items => isFiniteAll items
  | _ => true

/-- Whether every double in trees is finite. -/
def isFiniteAll : List Expr → Bool
  | [] => true
  | e :: es => e.isFinite && isFiniteAll es

end

mutual

/-- A tree with the times in it settled. -/
def settle : Expr → Expr
  | .literal v => .literal v.settle
  | .quoted v => .quoted v.settle
  | .operation tag operands => .operation tag (settleAll operands)
  | .list items => .list (settleAll items)
  | e => e

/-- Trees with the times in them settled. -/
def settleAll : List Expr → List Expr
  | [] => []
  | e :: es => e.settle :: settleAll es

end

mutual

/-- Whether leap seconds in a tree come after second 59 only. -/
def isSettled : Expr → Bool
  | .literal v => v.isSettled
  | .quoted v => v.isSettled
  | .operation _ operands => isSettledAll operands
  | .list items => isSettledAll items
  | _ => true

/-- Whether leap seconds in trees come after second 59 only. -/
def isSettledAll : List Expr → Bool
  | [] => true
  | e :: es => e.isSettled && isSettledAll es

end

mutual

/-- A tree is settled when settling leaves it as it is. -/
theorem settle_eq_self_iff (e : Expr) : e.settle = e ↔ e.isSettled = true := by
  cases e with
  | literal v => simp only [settle, isSettled, Expr.literal.injEq, v.settle_eq_self_iff]
  | quoted v => simp only [settle, isSettled, Expr.quoted.injEq, v.settle_eq_self_iff]
  | operation tag es =>
      simp only [settle, isSettled, Expr.operation.injEq, true_and, settleAll_eq_self_iff es]
  | list es => simp only [settle, isSettled, Expr.list.injEq, settleAll_eq_self_iff es]
  | _ => simp only [settle, isSettled]

/-- Trees are settled when settling leaves them as they are. -/
theorem settleAll_eq_self_iff (es : List Expr) : settleAll es = es ↔ isSettledAll es = true := by
  cases es with
  | nil => simp only [settleAll, isSettledAll]
  | cons e es =>
      simp only [settleAll, isSettledAll, List.cons.injEq, Bool.and_eq_true, settle_eq_self_iff e,
        settleAll_eq_self_iff es]

end

mutual

/-- The settled tree is decoded from the JSON form of a tree if its doubles are finite, and
    otherwise nothing is. -/
theorem ofJson?_toJson (names : FloatNames) (e : Expr) :
    ofJson? names e.toJson = if e.isFinite then some e.settle else none := by
  cases e with
  | literal v =>
      rw [isFinite, settle, toJson, ofJson?, Value.ofJsonForm?_toJson names v]
      cases v.isFinite <;> rfl
  | quoted v =>
      rw [isFinite, settle, toJson, ofJson?, Value.ofJsonForm?_toJson names v]
      cases v.isFinite <;> rfl
  | operation tag es =>
      have hes := ofJsonAll?_toJsonAll names es
      cases h : isFiniteAll es <;>
        simp [isFinite, settle, toJson, ofJson?, field?, operandsOfJson?, hes, h]
  | list es =>
      rw [isFinite, settle, toJson, ofJson?, ofJsonAll?_toJsonAll names es]
      cases isFiniteAll es <;> rfl
  | placeholder p =>
      simp only [isFinite, settle, toJson, ofJson?, Placeholder.ofJson?_object, Option.map_some,
        if_true]
  | identifier name => simp [isFinite, settle, toJson, ofJson?]
  | keyword name => simp [isFinite, settle, toJson, ofJson?]

/-- Settled trees are decoded from the JSON forms of trees if all their doubles are finite. -/
theorem ofJsonAll?_toJsonAll (names : FloatNames) (es : List Expr) :
    ofJsonAll? names (toJsonAll es) = if isFiniteAll es then some (settleAll es) else none := by
  cases es with
  | nil => rfl
  | cons e es =>
      rw [isFiniteAll, settleAll, toJsonAll, ofJsonAll?, ofJson?_toJson names e,
        ofJsonAll?_toJsonAll names es]
      cases e.isFinite <;> cases isFiniteAll es <;> rfl

end

end Expr
end SqlForms
