import SqlForms.Error

/-! # Clauses

    A composite operation takes a flat list of operands in which keywords
    mark clauses, as in `a b :from users :where (= id 5)`.  A form lists its
    clauses in the order they may come; the operands of a clause run up to
    the next keyword that marks a *later* clause.  A marker out of order is
    therefore an ordinary operand. -/

namespace SqlForms

/-- Whether a clause has to be there, and whether it takes operands. -/
inductive Presence where
  /-- Must be there, with operands. -/
  | required
  /-- May be missing; has operands when it is there. -/
  | optional
  /-- Must be there, and never has operands. -/
  | requiredFlag
  /-- May be missing, and never has operands. -/
  | flag
  deriving DecidableEq, Repr

namespace Presence

/-- Whether a clause has to be there. -/
def isRequired : Presence → Bool
  | .required => true
  | .requiredFlag => true
  | _ => false

/-- Whether a clause never has operands. -/
def isFlag : Presence → Bool
  | .requiredFlag => true
  | .flag => true
  | _ => false

end Presence

/-- A clause of a form. -/
structure Clause where
  /-- The keyword that marks it. -/
  marker : String
  presence : Presence
  /-- Whether it takes more than one operand. -/
  repeatable : Bool := false
  deriving DecidableEq, Repr

namespace Clause

/-- Whether a tree is a keyword that marks one of the clauses. -/
def marks (clauses : List Clause) (e : Expr) : Bool :=
  match e.keyword? with
  | some name => clauses.any (·.marker == name)
  | none => false

/-- What is wrong with the number of operands of a clause. -/
def miscount? (c : Clause) (operands : List Expr) : Option Count :=
  match c.presence.isFlag, operands with
  | true, [] => none
  | true, _ => some .no
  | false, [] => some (.atLeast 1)
  | false, [_] => none
  | false, _ => if c.repeatable then none else some (.exactly 1)

/-- Checks the number of operands of a clause. -/
def check (operator : String) (c : Clause) (operands : List Expr) : Except Error Unit :=
  match c.miscount? operands with
  | some expected => .error (.arity (operator ++ " :" ++ c.marker) expected operands.length)
  | none => .ok ()

end Clause

/-- Clauses that were found, each with its operands. -/
abbrev Bound := List (String × List Expr)

namespace Bound

/-- The operands of a clause that was found. -/
def get? (b : Bound) (marker : String) : Option (List Expr) :=
  b.lookup marker

/-- Whether a clause was found. -/
def has (b : Bound) (marker : String) : Bool :=
  (b.get? marker).isSome

/-- The first operand of a clause that was found. -/
def single? (b : Bound) (marker : String) : Option Expr :=
  (b.get? marker).bind List.head?

end Bound

namespace Clause

/-- The operands after the marker of a clause, if it comes next. -/
def after? (c : Clause) : List Expr → Option (List Expr)
  | e :: rest => if e.isKeyword c.marker then some rest else none
  | [] => none

/-- The operands of a clause: up to the marker of a later one. -/
def content (later : List Clause) (body : List Expr) : List Expr :=
  body.takeWhile (!marks later ·)

/-- What comes after the operands of a clause. -/
def remainder (later : List Clause) (body : List Expr) : List Expr :=
  body.dropWhile (!marks later ·)

/-- Binds a clause to its operands and goes on with what comes after them. -/
def take (operator : String) (c : Clause) (later : List Clause) (body : List Expr)
    (next : List Expr → Except Error Bound) : Except Error Bound := do
  c.check operator (content later body)
  let rest ← next (remainder later body)
  return (c.marker, content later body) :: rest

/-- Reads the clauses that may still come. -/
def readFrom (operator : String) : List Clause → List Expr → Except Error Bound
  | [], [] => .ok []
  | [], e :: _ => .error (.malformed operator (.leftOver e))
  | c :: later, operands =>
      match c.after? operands with
      | some body => c.take operator later body (readFrom operator later)
      | none =>
          if c.presence.isRequired then .error (.malformed operator (.missingClause c.marker))
          else readFrom operator later operands

/-- Splits operands that start with a marker. -/
def split (operator : String) (clauses : List Clause) (operands : List Expr) :
    Except Error Bound :=
  match operands with
  | [] => readFrom operator clauses []
  | e :: _ =>
      if marks clauses e then readFrom operator clauses operands
      else .error (.malformed operator (.noMarker e))

/-- Splits operands whose first clause has no marker of its own. -/
def splitLeading (operator : String) (clauses : List Clause) (operands : List Expr) :
    Except Error Bound :=
  match clauses with
  | [] => readFrom operator [] operands
  | c :: later => c.take operator later operands (readFrom operator later)

/-! ## What was found was given -/

/-- A clause is bound exactly when its operands have the right number and the rest is read. -/
theorem take_eq_ok {operator : String} {c : Clause} {later : List Clause} {body : List Expr}
    {next : List Expr → Except Error Bound} {b : Bound} :
    c.take operator later body next = .ok b ↔
      c.miscount? (content later body) = none ∧
        ∃ rest, next (remainder later body) = .ok rest ∧
          b = (c.marker, content later body) :: rest := by
  cases hc : c.miscount? (content later body) with
  | some n => simp [take, check, hc]
  | none =>
      cases hn : next (remainder later body) with
      | error x => simp [take, check, hc, hn]
      | ok rest =>
          simp [take, check, hc, hn, eq_comm]

/-- The operands of the clauses that were read are among those given. -/
theorem mem_of_mem_readFrom {operator : String} {clauses : List Clause} {operands : List Expr}
    {b : Bound} (h : readFrom operator clauses operands = .ok b) {m : String × List Expr}
    (hm : m ∈ b) {e : Expr} (he : e ∈ m.2) : e ∈ operands := by
  induction clauses generalizing operands b with
  | nil =>
      cases operands with
      | nil => simp only [readFrom, Except.ok.injEq] at h; subst h; simp at hm
      | cons x xs => simp [readFrom] at h
  | cons c later ih =>
      rw [readFrom] at h
      split at h
      next body hb =>
        have sub : ∀ x ∈ body, x ∈ operands := by
          intro x hx
          cases operands with
          | nil => simp [after?] at hb
          | cons y ys => simp only [after?] at hb; split at hb <;> simp_all
        obtain ⟨-, rest, hrest, rfl⟩ := take_eq_ok.mp h
        rcases List.mem_cons.mp hm with rfl | hm
        · exact sub e (List.takeWhile_subset _ he)
        · exact sub e (List.dropWhile_subset _ (ih hrest hm))
      next =>
        split at h
        · simp at h
        · exact ih h hm

/-- A clause that is looked up was found. -/
theorem mem_of_get? {b : Bound} {marker : String} {es : List Expr}
    (h : b.get? marker = some es) : (marker, es) ∈ b := by
  obtain ⟨before, after, rfl, -⟩ := List.lookup_eq_some_iff.mp h
  simp

/-- A clause of operands that start with a marker has operands that were given. -/
theorem mem_of_split {operator : String} {clauses : List Clause} {operands : List Expr}
    {b : Bound} (h : split operator clauses operands = .ok b) {marker : String}
    {es : List Expr} (hg : b.get? marker = some es) {e : Expr} (he : e ∈ es) : e ∈ operands := by
  have hm := mem_of_get? hg
  unfold split at h
  split at h
  · exact mem_of_mem_readFrom h hm he
  · split at h
    · exact mem_of_mem_readFrom h hm he
    · simp at h

/-- A clause of operands whose first clause has no marker has operands that were given. -/
theorem mem_of_splitLeading {operator : String} {clauses : List Clause} {operands : List Expr}
    {b : Bound} (h : splitLeading operator clauses operands = .ok b) {marker : String}
    {es : List Expr} (hg : b.get? marker = some es) {e : Expr} (he : e ∈ es) : e ∈ operands := by
  have hm := mem_of_get? hg
  unfold splitLeading at h
  split at h
  · exact mem_of_mem_readFrom h hm he
  · obtain ⟨-, rest, hrest, rfl⟩ := take_eq_ok.mp h
    rcases List.mem_cons.mp hm with heq | hm
    · cases heq
      exact List.takeWhile_subset _ he
    · exact List.dropWhile_subset _ (mem_of_mem_readFrom hrest hm he)

end Clause

/-- The one operand of a clause is the first of its operands. -/
theorem Bound.single?_eq_some {b : Bound} {marker : String} {e : Expr}
    (h : b.single? marker = some e) : ∃ es, b.get? marker = some es ∧ e ∈ es := by
  obtain ⟨es, hes, he⟩ := Option.bind_eq_some_iff.mp h
  exact ⟨es, hes, List.mem_of_mem_head? he⟩

end SqlForms
