import SqlForms.Proofs.From.Grammar

/-! # Markers in from lists

    A list is read in one way only (`elements_append_inj`), so it is settled
    which of its markers introduce joins.

    A marker that stands where the target or the condition of a join should
    be is read as that target or condition (`Misplaced`).  It makes no join of
    its own, so the markers of a list are its joins exactly when none is
    misplaced (`Reading.countP_eq_joins_iff`). -/

namespace SqlForms.From

/-! ## Readings are unique -/

namespace Element

private theorem items_ne_nil (x : Element) : x.items ≠ [] := by
  cases x <;> exact List.cons_ne_nil _ _

/-- The first element of a list is known from its items. -/
theorem items_append_inj {x y : Element} {as bs : List Expr} (h : x.items ++ as = y.items ++ bs) :
    x = y ∧ as = bs := by
  -- The first item tells tables, cross joins and the other joins apart.
  cases x with
  | table e plain =>
      cases y with
      | table e' plain' =>
          cases h
          exact ⟨rfl, rfl⟩
      | crossJoin target =>
          cases h
          exact absurd (.inl rfl) plain
      | join j target condition =>
          cases h
          exact absurd (.inr ⟨j, rfl⟩) plain
  | crossJoin target =>
      cases y with
      | table e plain =>
          cases h
          exact absurd (.inl rfl) plain
      | crossJoin target' =>
          cases h
          exact ⟨rfl, rfl⟩
      | join j target' condition =>
          have hmarker := Expr.keyword.inj (List.cons.inj h).1
          exact absurd hmarker.symm (marker_ne_cross j)
  | join j target condition =>
      cases y with
      | table e plain =>
          cases h
          exact absurd (.inr ⟨j, rfl⟩) plain
      | crossJoin target' =>
          have hmarker := Expr.keyword.inj (List.cons.inj h).1
          exact absurd hmarker (marker_ne_cross j)
      | join j' target' condition' =>
          have hmarker := Expr.keyword.inj (List.cons.inj h).1
          have hj : j = j' := marker_injective hmarker
          cases hj
          cases h
          exact ⟨rfl, rfl⟩

end Element

/-- Elements that start with the items of others start with these elements. -/
theorem elements_append_inj {xs ys : List Element} {rest : List Expr}
    (h : xs.flatMap Element.items = ys.flatMap Element.items ++ rest) :
    ∃ zs, xs = ys ++ zs ∧ zs.flatMap Element.items = rest := by
  induction ys generalizing xs with
  | nil => exact ⟨xs, rfl, h⟩
  | cons y ys ih =>
      cases xs with
      | nil =>
          rw [List.flatMap_cons, List.append_assoc] at h
          exact absurd (List.append_eq_nil_iff.mp h.symm).1 y.items_ne_nil
      | cons x xs =>
          rw [List.flatMap_cons, List.flatMap_cons, List.append_assoc] at h
          obtain ⟨rfl, htail⟩ := Element.items_append_inj h
          obtain ⟨zs, rfl, hzs⟩ := ih htail
          exact ⟨zs, rfl, hzs⟩

/-- What follows a list that is read, in a longer one, is read as further elements. -/
theorem Reading.rest_of_append {r s : Reading} {rest : List Expr} (h : r.items = s.items ++ rest) :
    ∃ zs, r.rest = s.rest ++ zs ∧ zs.flatMap Element.items = rest :=
  elements_append_inj (List.cons.inj h).2

/-- A list that ends inside a join cannot be read. -/
theorem Reading.items_ne_incomplete (r s : Reading) (j : Join) {rest : List Expr}
    (h : rest.length < 3) : r.items ≠ s.items ++ .keyword j.marker :: rest := by
  intro hitems
  obtain ⟨zs, -, hzs⟩ := rest_of_append hitems
  cases zs with
  | nil => cases hzs
  | cons z zs =>
      cases z with
      | table e plain =>
          have hfirst : e = .keyword j.marker := (List.cons.inj hzs).1
          exact plain (.inr ⟨j, hfirst⟩)
      | crossJoin target =>
          have hmarker := Expr.keyword.inj (List.cons.inj hzs).1
          exact marker_ne_cross j hmarker.symm
      | join j' target condition =>
          have hrest : target :: .keyword "on" :: condition :: zs.flatMap Element.items = rest :=
            (List.cons.inj hzs).2
          rw [← hrest] at h
          simp only [List.length_cons] at h
          omega

/-! ## Markers and joins -/

/-- A tree is a marker exactly when it is not read as a table. -/
theorem classify_ne_table_iff (e : Expr) : classify e ≠ .table ↔ IsMarker e := by
  constructor
  · intro h
    rcases marker_cases e with plain | hmarker
    · exact absurd (classify_plain plain) h
    · exact hmarker
  · rintro (rfl | ⟨j, rfl⟩)
    · decide
    · rw [classify_join]
      exact Item.noConfusion

instance : DecidablePred IsMarker := fun e =>
  decidable_of_iff _ (classify_ne_table_iff e)

namespace Element

/-- Whether an element is a join. -/
def isJoin : Element → Bool
  | table _ _ => false
  | crossJoin _ => true
  | join _ _ _ => true

/-- The target and the condition of a join. -/
def joined : Element → List Expr
  | table _ _ => []
  | crossJoin target => [target]
  | join _ target condition => [target, condition]

end Element

namespace Reading

/-- The number of joins of a list. -/
def joins (r : Reading) : Nat :=
  r.rest.countP Element.isJoin

/-- The targets and conditions of the joins of a list. -/
def joined (r : Reading) : List Expr :=
  r.rest.flatMap Element.joined

end Reading

/-- A marker stands where the target or the condition of a join should be, behind a list that can
    be read. -/
def Misplaced (es : List Expr) : Prop :=
  ∃ (r : Reading) (rest : List Expr), es = r.items ++ rest ∧
    ((∃ m x tail, rest = m :: x :: tail ∧ IsMarker m ∧ IsMarker x) ∨
      ∃ (j : Join) (target x : Expr) (tail : List Expr),
        rest = .keyword j.marker :: target :: .keyword "on" :: x :: tail ∧ IsMarker x)

/-- The markers of an element: its own if it is a join, and those it takes as a target or a
    condition. -/
theorem Element.countP_items (x : Element) :
    x.items.countP IsMarker = x.isJoin.toNat + x.joined.countP IsMarker := by
  have hcross : IsMarker (.keyword "cross-join") := .inl rfl
  have hon : ¬ IsMarker (.keyword "on") := by decide
  cases x with
  | table e plain => simp [items, isJoin, joined, plain]
  | crossJoin target => simp [items, isJoin, joined, List.countP_cons, hcross, Nat.add_comm]
  | join j target condition =>
      have hj : IsMarker (.keyword j.marker) := .inr ⟨j, rfl⟩
      simp [items, isJoin, joined, List.countP_cons, hj, hon]
      omega

/-- The markers of a list: one for each of its joins, and those taken as a target or a
    condition. -/
theorem Reading.countP_items (r : Reading) :
    r.items.countP IsMarker = r.joins + r.joined.countP IsMarker := by
  have hrest : ∀ xs : List Element, (xs.flatMap Element.items).countP IsMarker =
      xs.countP Element.isJoin + (xs.flatMap Element.joined).countP IsMarker := by
    intro xs
    induction xs with
    | nil => rfl
    | cons x xs ih =>
        rw [List.flatMap_cons, List.flatMap_cons, List.countP_append, List.countP_append, ih,
          x.countP_items, List.countP_cons]
        cases x.isJoin <;> simp <;> omega
  rw [items, List.countP_cons_of_neg (by simpa using r.plain), hrest]
  rfl

/-- What follows a marker at the start of elements is the target of a join. -/
theorem mem_joined_of_marker {zs : List Element} {m x : Expr} {tail : List Expr}
    (h : zs.flatMap Element.items = m :: x :: tail) (hm : IsMarker m) :
    x ∈ zs.flatMap Element.joined := by
  cases zs with
  | nil => cases h
  | cons z zs =>
      refine List.mem_append_left _ ?_
      cases z with
      | table e plain =>
          have hfirst : e = m := (List.cons.inj h).1
          exact absurd (hfirst ▸ hm) plain
      | crossJoin target =>
          cases h
          exact List.mem_cons_self
      | join j target condition =>
          cases h
          exact List.mem_cons_self

/-- A marker is misplaced in a list that is read exactly when it is taken as the target or the
    condition of a join. -/
theorem Reading.misplaced_iff (r : Reading) : Misplaced r.items ↔ ∃ x ∈ r.joined, IsMarker x := by
  constructor
  · rintro ⟨s, rest, hitems, hrest⟩
    obtain ⟨zs, hzs, rfl⟩ := rest_of_append hitems
    have hjoined : r.joined = s.joined ++ zs.flatMap Element.joined := by
      rw [joined, hzs, List.flatMap_append]
      rfl
    rw [hjoined]
    -- A keyword is misplaced as the target of a join or as its condition.
    rcases hrest with ⟨m, x, tail, h, hm, hx⟩ | ⟨j, target, x, tail, h, hx⟩
    · exact ⟨x, List.mem_append_right _ (mem_joined_of_marker h hm), hx⟩
    · have hjoin : zs.flatMap Element.items =
          [Element.join j target x].flatMap Element.items ++ tail := h
      obtain ⟨ws, rfl, -⟩ := elements_append_inj hjoin
      exact ⟨x, List.mem_append_right _ (.tail _ (.head _)), hx⟩
  · rintro ⟨x, hx, hmarker⟩
    obtain ⟨z, hz, hx⟩ := List.mem_flatMap.mp hx
    obtain ⟨xs, ys, hsplit⟩ := List.append_of_mem hz
    refine ⟨⟨r.first, r.plain, xs⟩, z.items ++ ys.flatMap Element.items, ?_, ?_⟩
    · simp [items, hsplit]
    · cases z with
      | table e plain => cases hx
      | crossJoin target =>
          cases List.mem_singleton.mp hx
          exact .inl ⟨_, _, _, rfl, .inl rfl, hmarker⟩
      | join j target condition =>
          rcases List.mem_cons.mp hx with rfl | hx
          · exact .inl ⟨_, _, _, rfl, .inr ⟨j, rfl⟩, hmarker⟩
          · cases List.mem_singleton.mp hx
            exact .inr ⟨j, _, _, _, rfl, hmarker⟩

/-- The markers of a list that is read are its joins exactly when none is misplaced. -/
theorem Reading.countP_eq_joins_iff (r : Reading) :
    r.items.countP IsMarker = r.joins ↔ ¬ Misplaced r.items := by
  rw [r.countP_items, r.misplaced_iff, Nat.add_eq_left, List.countP_eq_zero]
  simp only [decide_eq_true_eq, not_exists, not_and]

end SqlForms.From
