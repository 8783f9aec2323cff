import SqlForms.Proofs.Values.Decimals

/-! # Which values have no literal

    A value fails for a number only: a double that is not finite, or a
    decimal whose text is none.  Numbers stand at the leaves of arrays, and
    an array is written from left to right, so the error of a value is that
    of the first bad number among its scalars.

    The failure of two steps is the first failure there is (`failure?_pair`);
    over a value and its items this is a search through its scalars
    (`failure?_literal`), where the dialect does not come in. -/

namespace SqlForms

open Decimal

/-! ## Failures -/

/-- The error of a step, if it fails. -/
def failure? {α : Type} : Except Error α → Option Error
  | .ok _ => none
  | .error e => some e

variable {α β γ : Type}

theorem failure?_eq_some {x : Except Error α} {e : Error} : failure? x = some e ↔ x = .error e := by
  cases x <;> simp [failure?]

theorem failure?_eq_none {x : Except Error α} : failure? x = none ↔ ∃ a, x = .ok a := by
  cases x <;> simp [failure?]

/-- A function adds no error and drops none. -/
theorem failure?_map (f : α → β) (x : Except Error α) : failure? (x.map f) = failure? x := by
  cases x <;> rfl

/-- Two steps whose results are put together fail as the first of them that does. -/
theorem failure?_pair (x : Except Error α) (y : Except Error β) (f : α → β → γ) :
    failure? (x >>= fun a => y >>= fun b => .ok (f a b)) = (failure? x).or (failure? y) := by
  cases x with
  | error e => rfl
  | ok a => cases y <;> rfl

namespace Value

/-! ## Bad numbers -/

mutual

/-- The scalars of a value from left to right, at any depth of arrays. -/
def scalars : Value → List Value
  | .array items => scalarsAll items
  | v => [v]

/-- The scalars of values from left to right. -/
def scalarsAll : List Value → List Value
  | [] => []
  | v :: vs => scalars v ++ scalarsAll vs

end

/-- A scalar that has no literal, with the reason and the error that says so. -/
inductive Refusal : Value → String → Error → Prop where
  | notFinite {x : Binary64} : x.isFinite = false →
      Refusal (.float x) "not a finite number" (.notFinite x)
  | notDecimal {n : String} : ¬ Numeral n.toList →
      Refusal (.numeric n) "not a decimal number" (.notDecimal n)

/-- Whether a scalar is a number that cannot be written. -/
def IsBad (v : Value) : Prop :=
  ∃ reason e, Refusal v reason e

/-- An error shows the scalar it is about, and its reason. -/
theorem Refusal.message_eq {v : Value} {reason : String} {e : Error} (h : Refusal v reason e) :
    e.message = unserializable v.describe reason := by
  cases h with
  | notFinite _ => rfl
  | notDecimal _ => rfl

/-- The error of a scalar, if it is a number that cannot be written. -/
def fault? : Value → Option Error
  | .float x => if x.isFinite then none else some (.notFinite x)
  | .numeric n => if isDecimalNumber n then none else some (.notDecimal n)
  | _ => none

/-- The error of a scalar is the one of its refusal. -/
theorem fault?_eq_some {v : Value} {e : Error} :
    v.fault? = some e ↔ ∃ reason, Refusal v reason e := by
  constructor
  · intro h
    cases v with
    | float x =>
        rw [fault?] at h
        split at h
        next => cases h
        next hx =>
          rw [← Option.some.inj h]
          exact ⟨_, .notFinite (Bool.not_eq_true _ ▸ hx)⟩
    | numeric n =>
        rw [fault?] at h
        split at h
        next => cases h
        next hn =>
          rw [← Option.some.inj h]
          exact ⟨_, .notDecimal fun hnum => hn ((isDecimalNumber_iff n).mpr hnum)⟩
    | _ => cases h
  · rintro ⟨reason, h⟩
    cases h with
    | notFinite hx => rw [fault?, if_neg (by simp [hx])]
    | notDecimal hn => rw [fault?, if_neg fun h => hn ((isDecimalNumber_iff _).mp h)]

/-- A scalar has no error exactly when it is not bad. -/
theorem fault?_eq_none {v : Value} : v.fault? = none ↔ ¬ v.IsBad := by
  rw [Option.eq_none_iff_forall_ne_some]
  constructor
  · rintro h ⟨reason, e, hr⟩
    exact h e (fault?_eq_some.mpr ⟨reason, hr⟩)
  · intro h e he
    obtain ⟨reason, hr⟩ := fault?_eq_some.mp he
    exact h ⟨reason, e, hr⟩

/-! ## The first one -/

/-- A value that is no array fails for itself. -/
theorem failure?_scalar (d : Dialect) {v : Value} (hv : ∀ items, v ≠ .array items) :
    failure? (v.literal d) = v.fault? := by
  cases v with
  | float x =>
      rw [literal, fault?]
      split <;> rfl
  | numeric n =>
      rw [literal, fault?]
      split <;> rfl
  | array items => exact absurd rfl (hv items)
  | _ => rfl

mutual

/-- A value fails for the first of its scalars that does. -/
theorem failure?_literal (d : Dialect) (v : Value) :
    failure? (v.literal d) = v.scalars.findSome? fault? := by
  by_cases hv : ∃ items, v = .array items
  · obtain ⟨items, rfl⟩ := hv
    -- The empty array is a literal of its own, in which nothing can fail.
    cases items with
    | nil => rw [literal, scalars, scalarsAll]; rfl
    | cons item items =>
        rw [literal, scalars, scalarsAll, List.findSome?_append, ← failure?_literal d item,
          ← failure?_literals d items]
        exact failure?_pair _ _ _
  · have hv : ∀ items, v ≠ .array items := fun items h => hv ⟨items, h⟩
    rw [failure?_scalar d hv, scalars.eq_2 v hv, List.findSome?_singleton]

/-- Values fail for the first of their scalars that does. -/
theorem failure?_literals (d : Dialect) (vs : List Value) :
    failure? (literals d vs) = (scalarsAll vs).findSome? fault? := by
  cases vs with
  | nil => rw [literals, scalarsAll]; rfl
  | cons v vs =>
      rw [literals, scalarsAll, List.findSome?_append, ← failure?_literal d v,
        ← failure?_literals d vs]
      exact failure?_pair _ _ _

end

/-- The literal of a value fails with the error of its first bad scalar. -/
theorem failure?_sql (d : Dialect) (v : Value) :
    failure? (v.sql d) = v.scalars.findSome? fault? := by
  rw [sql, failure?_map, failure?_literal]

/-- **A value fails exactly for its first bad number.**  A value has no literal exactly if one of
    its scalars is a bad number; its error is the one about the first of them, and shows it with
    the reason; and the dialect changes nothing about it. -/
theorem sql_eq_error_iff_first_bad (v : Value) :
    (∀ d, (∃ e, v.sql d = .error e) ↔ ∃ u ∈ v.scalars, u.IsBad) ∧
    (∀ d e, v.sql d = .error e ↔ ∃ before bad after reason,
      v.scalars = before ++ bad :: after ∧ (∀ u ∈ before, ¬ u.IsBad) ∧ Refusal bad reason e) ∧
    (∀ bad reason e, Refusal bad reason e → e.message = unserializable bad.describe reason) ∧
    ∀ d d' e, v.sql d = .error e ↔ v.sql d' = .error e := by
  have hsql : ∀ d e, v.sql d = .error e ↔ v.scalars.findSome? fault? = some e := by
    intro d e
    rw [← failure?_eq_some, failure?_sql]
  refine ⟨fun d => ?_, fun d e => ?_, fun _ _ _ h => h.message_eq, fun d d' e => ?_⟩
  · simp only [hsql]
    rw [← Option.isSome_iff_exists, List.findSome?_isSome_iff]
    constructor
    · rintro ⟨u, hu, hsome⟩
      obtain ⟨e, he⟩ := Option.isSome_iff_exists.mp hsome
      obtain ⟨reason, hr⟩ := fault?_eq_some.mp he
      exact ⟨u, hu, reason, e, hr⟩
    · rintro ⟨u, hu, reason, e, hr⟩
      exact ⟨u, hu, Option.isSome_iff_exists.mpr ⟨e, fault?_eq_some.mpr ⟨reason, hr⟩⟩⟩
  · rw [hsql, List.findSome?_eq_some_iff]
    constructor
    · rintro ⟨before, bad, after, hv, hbad, hbefore⟩
      obtain ⟨reason, hr⟩ := fault?_eq_some.mp hbad
      exact ⟨before, bad, after, reason, hv, fun u hu => fault?_eq_none.mp (hbefore u hu), hr⟩
    · rintro ⟨before, bad, after, reason, hv, hbefore, hr⟩
      exact ⟨before, bad, after, hv, fault?_eq_some.mpr ⟨reason, hr⟩,
        fun u hu => fault?_eq_none.mpr (hbefore u hu)⟩
  · rw [hsql, hsql]

/-- A number with a point at its end passes, and of two bad numbers the inner one comes first. -/
example :
    (Value.array [.numeric "+1.", .array [.numeric "1; DROP", .null], .float .nan]).sql .standard =
      .error (.notDecimal "1; DROP") :=
  rfl

end Value
end SqlForms
