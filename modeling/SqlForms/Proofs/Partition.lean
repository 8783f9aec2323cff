import SqlForms.Form.Schema

/-! # Clauses as a partition of the operands

    Splitting operands into clauses can be said without an algorithm.  Take
    some of the clauses of a form, in its order and none of the required ones
    left out, and give each the operands it may have, none of them a marker of
    a later clause.  Written out one after the other, each behind its marker,
    they are the operands that are split.

    * `Bound.operands` writes clauses out again;
    * `Clause.Partition` is the condition;
    * `Clause.readFrom_eq_ok` says that reading finds exactly the partitions,
      by induction on the clauses that may still come: the first of them is at
      the front of the operands (`partition_cons`) or in none of the clauses
      (`partition_skip`). -/

namespace SqlForms

namespace Bound

/-- Clauses written out again: each marker as a keyword, and its operands after it. -/
def operands (b : Bound) : List Expr :=
  List.flatMap (fun m => .keyword m.1 :: m.2) b

/-- The markers of clauses, in order. -/
def markers (b : Bound) : List String :=
  List.map (·.1) b

@[simp] theorem operands_nil : operands [] = [] := rfl

@[simp] theorem operands_cons (marker : String) (es : List Expr) (b : Bound) :
    operands ((marker, es) :: b) = .keyword marker :: (es ++ operands b) := rfl

@[simp] private theorem markers_nil : markers [] = [] := rfl

@[simp] private theorem markers_cons (marker : String) (es : List Expr) (b : Bound) :
    markers ((marker, es) :: b) = marker :: markers b := rfl

/-- The marker of a bound clause is one of the markers. -/
theorem marker_mem_markers {b : Bound} {marker : String} {es : List Expr} (h : (marker, es) ∈ b) :
    marker ∈ b.markers :=
  List.mem_map_of_mem (f := (·.1)) h

end Bound

namespace Clause

/-- Whether operands are as many as a clause takes: none for a flag, at least one otherwise, and
    only one unless the clause is repeatable. -/
def Admits (c : Clause) (es : List Expr) : Prop :=
  if c.presence.isFlag then es = [] else es ≠ [] ∧ (c.repeatable = false → es.length = 1)

/-- Whether clauses are a partition of the operands that follows the form. -/
structure Partition (clauses : List Clause) (operands : List Expr) (b : Bound) : Prop where
  /-- Written out again, they are the operands. -/
  operands_eq : b.operands = operands
  /-- They come in the order of the form, each at most once. -/
  markers_sublist : b.markers.Sublist (clauses.map (·.marker))
  /-- None that has to be there is missing. -/
  required_mem : ∀ c ∈ clauses, c.presence.isRequired → c.marker ∈ b.markers
  /-- Each has as many operands as it takes. -/
  admits : ∀ c ∈ clauses, ∀ es, (c.marker, es) ∈ b → c.Admits es
  /-- No operand of a clause marks a later one. -/
  delimited : ∀ before c later, clauses = before ++ c :: later → ∀ es, (c.marker, es) ∈ b →
    ∀ x ∈ later, .keyword x.marker ∉ es

/-! ## One clause -/

/-- Operands are not miscounted exactly when the clause admits them. -/
theorem miscount?_eq_none {c : Clause} {es : List Expr} : c.miscount? es = none ↔ c.Admits es := by
  cases hf : c.presence.isFlag <;> rcases es with _ | ⟨x, _ | ⟨y, es⟩⟩ <;>
    simp [miscount?, Admits, hf]

/-- Operands come after the marker of a clause exactly when they start with it. -/
theorem after?_eq_some {c : Clause} {operands body : List Expr} :
    c.after? operands = some body ↔ operands = .keyword c.marker :: body := by
  cases operands with
  | nil => simp [after?]
  | cons e rest =>
      cases e with
      | keyword name => simp [after?, Expr.isKeyword]
      | _ => simp [after?, Expr.isKeyword]

/-- A tree marks clauses exactly when it is the keyword of one. -/
theorem marks_eq_true {clauses : List Clause} {e : Expr} :
    marks clauses e = true ↔ ∃ c ∈ clauses, e = .keyword c.marker := by
  cases e with
  | keyword name =>
      simp only [marks, Expr.keyword?, List.any_eq_true, beq_iff_eq, Expr.keyword.injEq]
      exact exists_congr fun c => and_congr_right fun _ => eq_comm
  | _ => simp [marks, Expr.keyword?]

/-- Operands without a later marker are what a clause takes when a later marker, or nothing, comes
    after them. -/
theorem content_append {later : List Clause} {es rest : List Expr}
    (hes : ∀ x ∈ later, .keyword x.marker ∉ es)
    (hrest : ∀ e, rest.head? = some e → marks later e) :
    content later (es ++ rest) = es ∧ remainder later (es ++ rest) = rest := by
  have hplain : ∀ e ∈ es, (!marks later e) = true := by
    intro e he
    rw [Bool.not_eq_true', Bool.eq_false_iff]
    intro hm
    obtain ⟨x, hx, rfl⟩ := marks_eq_true.mp hm
    exact hes x hx he
  have hstop : rest.takeWhile (!marks later ·) = [] ∧ rest.dropWhile (!marks later ·) = rest := by
    cases rest with
    | nil => exact ⟨rfl, rfl⟩
    | cons e rest => simp [hrest e rfl]
  rw [content, remainder, List.takeWhile_append_of_pos hplain, List.dropWhile_append_of_pos hplain,
    hstop.1, hstop.2, List.append_nil]
  exact ⟨rfl, rfl⟩

/-- The content of a clause ends before the markers of later ones. -/
theorem not_mem_content {later : List Clause} {body : List Expr} {x : Clause} (hx : x ∈ later) :
    .keyword x.marker ∉ content later body := by
  intro hm
  have hplain := List.all_eq_true.mp List.all_takeWhile _ hm
  rw [marks_eq_true.mpr ⟨x, hx, rfl⟩] at hplain
  cases hplain

/-! ## Partitions -/

/-- Without clauses there are no operands. -/
theorem partition_nil {operands : List Expr} {b : Bound} :
    Partition [] operands b ↔ operands = [] ∧ b = [] := by
  constructor
  · intro h
    have hb : b = [] := List.map_eq_nil_iff.mp (List.sublist_nil.mp h.markers_sublist)
    exact ⟨by rw [← h.operands_eq, hb]; rfl, hb⟩
  · rintro ⟨rfl, rfl⟩
    exact ⟨rfl, .slnil, by simp, by simp, by simp⟩

/-- What a partition starts with marks one of the clauses. -/
theorem Partition.marks_head {clauses : List Clause} {operands : List Expr} {b : Bound}
    (h : Partition clauses operands b) {e : Expr} (he : operands.head? = some e) :
    marks clauses e := by
  obtain ⟨rfl, hsub, -, -, -⟩ := h
  cases b with
  | nil => cases he
  | cons m b =>
      cases he
      obtain ⟨c, hc, hm⟩ := List.mem_map.mp (hsub.subset List.mem_cons_self)
      exact marks_eq_true.mpr ⟨c, hc, congrArg Expr.keyword hm.symm⟩

section Step

variable {c : Clause} {later : List Clause} {operands : List Expr} {b : Bound}

/-- A partition whose first clause is the first of the form. -/
theorem partition_cons (hc : c.marker ∉ later.map (·.marker)) {es : List Expr} :
    Partition (c :: later) operands ((c.marker, es) :: b) ↔
      c.Admits es ∧ (∀ x ∈ later, .keyword x.marker ∉ es) ∧
        ∃ rest, operands = .keyword c.marker :: (es ++ rest) ∧ Partition later rest b := by
  -- The first clause of the form is not among the later ones, so what is said of a later clause
  -- is not said of the one at the front.
  have hne : ∀ {x}, x ∈ later → x.marker ≠ c.marker :=
    fun hx he => hc (List.mem_map.mpr ⟨_, hx, he⟩)
  constructor
  · intro h
    have hsub : b.markers.Sublist (later.map (·.marker)) :=
      List.cons_sublist_cons.mp h.markers_sublist
    refine ⟨h.admits c List.mem_cons_self es List.mem_cons_self,
      h.delimited [] c later rfl es List.mem_cons_self, b.operands, h.operands_eq.symm,
      rfl, hsub, ?_, ?_, ?_⟩
    · intro x hx hr
      rcases List.mem_cons.mp (h.required_mem x (List.mem_cons_of_mem _ hx) hr) with he | hm
      · exact absurd he (hne hx)
      · exact hm
    · intro x hx es' hm
      exact h.admits x (List.mem_cons_of_mem _ hx) es' (List.mem_cons_of_mem _ hm)
    · intro before x after hl es' hm
      exact h.delimited (c :: before) x after (by rw [hl]; rfl) es' (List.mem_cons_of_mem _ hm)
  · rintro ⟨hadmits, hdelim, rest, rfl, h⟩
    have hfirst : ∀ {es'}, (c.marker, es') ∈ (c.marker, es) :: b → es' = es := by
      intro es' hm
      rcases List.mem_cons.mp hm with he | hm
      · cases he; rfl
      · exact absurd (h.markers_sublist.subset (Bound.marker_mem_markers hm)) hc
    have hmore : ∀ {x es'}, x ∈ later → (x.marker, es') ∈ (c.marker, es) :: b →
        (x.marker, es') ∈ b := by
      intro x es' hx hm
      rcases List.mem_cons.mp hm with he | hm
      · exact absurd (congrArg Prod.fst he) (hne hx)
      · exact hm
    refine ⟨by rw [Bound.operands_cons, h.operands_eq], h.markers_sublist.cons_cons _, ?_, ?_, ?_⟩
    · rintro x hx hr
      rcases List.mem_cons.mp hx with rfl | hx
      · exact List.mem_cons_self
      · exact List.mem_cons_of_mem _ (h.required_mem x hx hr)
    · intro x hx es' hm
      rcases List.mem_cons.mp hx with rfl | hx
      · rwa [hfirst hm]
      · exact h.admits x hx es' (hmore hx hm)
    · intro before x after hl es' hm
      cases before with
      | nil =>
          cases hl
          rwa [hfirst hm]
      | cons y before =>
          cases hl
          have hx : x ∈ before ++ x :: after := List.mem_append_right _ List.mem_cons_self
          exact h.delimited before x after rfl es' (hmore hx hm)

/-- A partition without the first clause of the form. -/
theorem partition_skip (hc : c.marker ∉ later.map (·.marker)) (hb : c.marker ∉ b.markers) :
    Partition (c :: later) operands b ↔
      c.presence.isRequired = false ∧ Partition later operands b := by
  have hnot : ∀ {es}, (c.marker, es) ∉ b := fun hm => hb (Bound.marker_mem_markers hm)
  constructor
  · intro h
    refine ⟨?_, h.operands_eq, ?_, ?_, ?_, ?_⟩
    · rw [Bool.eq_false_iff]
      exact fun hr => hb (h.required_mem c List.mem_cons_self hr)
    · rcases List.sublist_cons_iff.mp h.markers_sublist with hsub | ⟨ms, hms, -⟩
      · exact hsub
      · exact absurd (hms ▸ List.mem_cons_self) hb
    · exact fun x hx => h.required_mem x (List.mem_cons_of_mem _ hx)
    · exact fun x hx => h.admits x (List.mem_cons_of_mem _ hx)
    · exact fun before x after hl => h.delimited (c :: before) x after (by rw [hl]; rfl)
  · rintro ⟨hr, h⟩
    refine ⟨h.operands_eq, h.markers_sublist.cons _, ?_, ?_, ?_⟩
    · rintro x hx hreq
      rcases List.mem_cons.mp hx with rfl | hx
      · rw [hr] at hreq
        cases hreq
      · exact h.required_mem x hx hreq
    · intro x hx es hm
      rcases List.mem_cons.mp hx with rfl | hx
      · exact absurd hm hnot
      · exact h.admits x hx es hm
    · intro before x after hl es hm
      cases before with
      | nil => cases hl; exact absurd hm hnot
      | cons y before => cases hl; exact h.delimited before x after rfl es hm

/-- A partition has the first clause of the form at its front, or not at all. -/
theorem Partition.front (hc : c.marker ∉ later.map (·.marker))
    (h : Partition (c :: later) operands b) :
    c.marker ∉ b.markers ∨ ∃ es b', b = (c.marker, es) :: b' := by
  cases b with
  | nil => exact .inl (by simp)
  | cons m b =>
      obtain ⟨marker, es⟩ := m
      rcases List.sublist_cons_iff.mp h.markers_sublist with hsub | ⟨ms, hms, -⟩
      · exact .inl fun hm => hc (hsub.subset hm)
      · obtain rfl : marker = c.marker := (List.cons.inj hms).1
        exact .inr ⟨es, b, rfl⟩

end Step

/-! ## Reading -/

/-- Reading finds the partitions of the operands, and nothing else. -/
theorem readFrom_eq_ok (operator : String) {clauses : List Clause}
    (hd : (clauses.map (·.marker)).Nodup) {operands : List Expr} {b : Bound} :
    readFrom operator clauses operands = .ok b ↔ Partition clauses operands b := by
  induction clauses generalizing operands b with
  | nil =>
      rw [partition_nil]
      cases operands with
      | nil => simp [readFrom, eq_comm]
      | cons e rest => simp [readFrom]
  | cons c later ih =>
      obtain ⟨hc, hd⟩ := List.nodup_cons.mp hd
      rw [readFrom]
      cases ha : c.after? operands with
      | some body =>
          obtain rfl := after?_eq_some.mp ha
          simp only [take_eq_ok, miscount?_eq_none, ih hd]
          constructor
          · rintro ⟨hadmits, rest, hrest, rfl⟩
            refine (partition_cons hc).mpr ⟨hadmits, fun x hx => not_mem_content hx, _, ?_, hrest⟩
            rw [content, remainder, List.takeWhile_append_dropWhile]
          · intro h
            -- The operands start with the marker of the first clause, so a partition has it.
            rcases h.front hc with hb | ⟨es, rest, rfl⟩
            · have := ((partition_skip hc hb).mp h).2.marks_head rfl
              obtain ⟨x, hx, he⟩ := marks_eq_true.mp this
              exact absurd (List.mem_map.mpr ⟨x, hx, (Expr.keyword.inj he).symm⟩) hc
            · obtain ⟨hadmits, hdelim, after, hoperands, hrest⟩ := (partition_cons hc).mp h
              cases hoperands
              obtain ⟨hcontent, hremainder⟩ :=
                content_append hdelim fun e he => hrest.marks_head he
              rw [hcontent, hremainder]
              exact ⟨hadmits, rest, hrest, rfl⟩
      | none =>
          have hfront : ∀ es b', b = (c.marker, es) :: b' →
              ¬ Partition (c :: later) operands b := by
            rintro es b' rfl h
            obtain ⟨-, -, rest, rfl, -⟩ := (partition_cons hc).mp h
            rw [after?_eq_some.mpr rfl] at ha
            cases ha
          show (if c.presence.isRequired = true then _ else _) = _ ↔ _
          cases hr : c.presence.isRequired with
          | true =>
              rw [if_pos rfl]
              constructor
              · intro h; cases h
              · intro h
                rcases h.front hc with hb | ⟨es, b', hb⟩
                · have := ((partition_skip hc hb).mp h).1
                  rw [hr] at this
                  cases this
                · exact absurd h (hfront es b' hb)
          | false =>
              rw [if_neg Bool.false_ne_true, ih hd]
              constructor
              · intro h
                have hb : c.marker ∉ b.markers := fun hm => hc (h.markers_sublist.subset hm)
                exact (partition_skip hc hb).mpr ⟨hr, h⟩
              · intro h
                rcases h.front hc with hb | ⟨es, b', hb⟩
                · exact ((partition_skip hc hb).mp h).2
                · exact absurd h (hfront es b' hb)

/-- Operands that start with a marker are split by reading them. -/
theorem split_eq_ok (operator : String) {clauses : List Clause}
    (hd : (clauses.map (·.marker)).Nodup) {operands : List Expr} {b : Bound} :
    split operator clauses operands = .ok b ↔ Partition clauses operands b := by
  rw [← readFrom_eq_ok operator hd]
  cases operands with
  | nil => rfl
  | cons e rest =>
      rw [split]
      by_cases hm : marks clauses e
      · rw [if_pos hm]
      · rw [if_neg hm, readFrom_eq_ok operator hd]
        constructor
        · intro h; cases h
        · intro h; exact absurd (h.marks_head rfl) hm

/-- **Splitting finds the one partition of the operands.**  For a form whose markers differ, the
    clauses that are found are exactly the partitions of the operands; there is at most one; and
    clauses that are written out again are split as they were. -/
theorem split_eq_ok_iff_partition (operator : String) (clauses : List Clause)
    (hd : (clauses.map (·.marker)).Nodup) (operands : List Expr) (b : Bound) :
    (split operator clauses operands = .ok b ↔ Partition clauses operands b) ∧
      (Partition clauses operands b →
        (∀ b', Partition clauses operands b' → b' = b) ∧
          split operator clauses b.operands = .ok b) := by
  refine ⟨split_eq_ok operator hd, fun h => ⟨fun b' h' => ?_, ?_⟩⟩
  · have hb := (split_eq_ok operator hd).mpr h
    rw [(split_eq_ok operator hd).mpr h'] at hb
    exact Except.ok.inj hb
  · rw [h.operands_eq]
    exact (split_eq_ok operator hd).mpr h

/-- An index on a field and on a column of the name of a marker that comes too late. -/
theorem split_eq_ok_iff_partition_index :
    let operands : List Expr :=
      [.keyword "on", .identifier "users", .keyword "fields", .identifier "a", .keyword "on"]
    let b : Bound :=
      [("on", [.identifier "users"]), ("fields", [.identifier "a", .keyword "on"])]
    (Schema.indexClauses.map (·.marker)).Nodup ∧
      Partition Schema.indexClauses operands b ∧
      split "create-index" Schema.indexClauses operands = .ok b := by
  intro operands b
  have hd : (Schema.indexClauses.map (·.marker)).Nodup := by decide
  have hsplit : split "create-index" Schema.indexClauses operands = .ok b := rfl
  exact ⟨hd, (split_eq_ok_iff_partition "create-index" _ hd operands b).1.mp hsplit, hsplit⟩

end Clause
end SqlForms
