import SqlForms.Error

/-! # Type descriptors

    A type is named by a symbol, or by an operation whose operands are its
    parameters.  Its name is written in capitals with blanks for hyphens and
    underscores.  A union with the null marker makes a type nullable and is
    not part of its name. -/

namespace SqlForms.TypeName

/-- A text with its ASCII capitals made small. -/
def asciiLower (s : String) : List Char :=
  s.toList.map Char.toLower

/-- The name that stands for the missing value in a union of types. -/
def nullMarker : String := "db-null"

/-- Whether a tree is the null marker, in any ASCII case. -/
def isNullMarker (e : Expr) : Bool :=
  match e.symbol? with
  | some name => asciiLower name == nullMarker.toList
  | none => false

/-- A type without its union with the null marker, and whether there was one. -/
def splitNullable (type : Expr) : Expr × Bool :=
  match type with
  | .operation tag [a, b] =>
      if tag = "or" ∧ isNullMarker a then (b, true)
      else if tag = "or" ∧ isNullMarker b then (a, true)
      else (type, false)
  | .operation tag [inner] => if tag = nullMarker then (inner, true) else (type, false)
  | _ => (type, false)

/-- Whether a character may stand in the name of a type. -/
def isNameChar (c : Char) : Bool :=
  c.isAlphanum || c == '-' || c == '_' || c == ' '

/-- Whether a text is the name of a type: not empty, and only of such characters. -/
def isName (name : String) : Bool :=
  !name.toList.isEmpty && name.toList.all isNameChar

/-- A character of a name as it is written. -/
def writeChar (c : Char) : Char :=
  if c = '-' ∨ c = '_' then ' ' else c.toUpper

/-- Parameters in parentheses; nothing when there are none. -/
def writeParameters : List Nat → String
  | [] => ""
  | ns => "(" ++ ", ".intercalate (ns.map toString) ++ ")"

/-- The type with a name and parameters.  Strings are texts, or characters of one length. -/
def write (name : String) (parameters : List Nat) : Except Error String :=
  if ¬ isName name then .error (.definition (.typeName name))
  else if asciiLower name = ['s', 't', 'r', 'i', 'n', 'g'] then
    match parameters with
    | [] => .ok "TEXT"
    | [n] => .ok ("CHAR(" ++ toString n ++ ")")
    | _ => .error (.arity "string" (.atMost 1) parameters.length)
  else .ok (String.ofList (name.toList.map writeChar) ++ writeParameters parameters)

/-- The amount of an integer constant that is not negative. -/
def parameterOfInt (n : Int64) : Except Error Nat :=
  if n.toInt < 0 then .error (.definition (.negativeParameter n.toInt)) else .ok n.toInt.toNat

/-- A parameter of a type. -/
def parameter : Expr → Except Error Nat
  | .literal (.int n) => parameterOfInt n
  | .quoted (.int n) => parameterOfInt n
  | e => .error (.definition (.typeParameter e))

/-- The text of a type descriptor; its parameters are checked before its name. -/
def ofExpr : Expr → Except Error String
  | .identifier name => write name []
  | .keyword name => write name []
  | .operation tag operands => do
      let parameters ← operands.mapM parameter
      write tag parameters
  | e => .error (.definition (.typeDescriptor e))

/-! ## Names are ASCII -/

/-- The characters of a type name are ASCII. -/
theorem toNat_lt_of_isNameChar {c : Char} (h : isNameChar c) : c.toNat < 128 := by
  have bound : ∀ {x : Char}, x.toNat < 128 → c.val ≤ x.val → c.toNat < 128 :=
    fun hx hc => Nat.lt_of_le_of_lt (UInt32.le_iff_toNat_le.mp hc) hx
  simp only [isNameChar, Bool.or_eq_true, beq_iff_eq] at h
  rcases h with ((h | rfl) | rfl) | rfl
  · rcases Bool.or_eq_true_iff.mp h with h | h
    · rcases Bool.or_eq_true_iff.mp h with h | h
      · exact bound (x := 'Z') (by decide) (of_decide_eq_true h).2
      · exact bound (x := 'z') (by decide) (of_decide_eq_true (Bool.and_eq_true_iff.mp h).2)
    · exact bound (x := '9') (by decide) (of_decide_eq_true (Bool.and_eq_true_iff.mp h).2)
  · decide
  · decide
  · decide

/-- What holds of the characters of names is found by looking at the ASCII ones. -/
theorem forall_nameChar {p : Char → Prop}
    (h : ∀ n : Fin 128, isNameChar (Char.ofNat n) → p (Char.ofNat n)) {c : Char}
    (hc : isNameChar c) : p c := by
  have hp := h ⟨c.toNat, toNat_lt_of_isNameChar hc⟩
  simp only [Char.ofNat_toNat] at hp
  exact hp hc

end SqlForms.TypeName
