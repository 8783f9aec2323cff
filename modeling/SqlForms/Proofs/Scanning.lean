import SqlForms.Proofs.Partition
import SqlForms.Proofs.Registered

/-! # Splitting as a scan

    Reading clauses passes on the operands that are left.  A scan does the
    same over the operands as they were given: it keeps the position of the
    next operand and the clauses it has bound, and takes one turn for each
    clause of the form.

    * `Scan.run_finish` says that reading is a scan and, after it, a look at
      what is left.
    * `Scan.Poised` is what every turn keeps: the clauses that were bound,
      written out again, are the operands up to the position, and the operand
      there marks a clause whose turn is still to come.  After the last turn
      there is no such clause, so nothing is left (`position_eq_length`).
    * `Clause.Fault` says what can still go wrong, by the state that the scan
      has reached (`Scan.Reaches`).
    * With one more operand in front a scan takes the same turns, one
      position further (`Scan.run_cons`).  So a first clause without a marker
      is read as if its marker stood there. -/

namespace SqlForms

namespace Bound

private theorem operands_append (b b' : Bound) :
    operands (b ++ b') = operands b ++ operands b' :=
  List.flatMap_append

end Bound

namespace Clause

/-- How far a scan has come. -/
structure Scan where
  /-- The position of the next operand. -/
  position : Nat := 0
  /-- The clauses that were bound, in order. -/
  bound : Bound := []

namespace Scan

variable (operator : String) (operands : List Expr)

/-- Binds a clause to the operands from a position on, up to the marker of a later one. -/
def bindAt (c : Clause) (later : List Clause) (start : Nat) (s : Scan) : Except Error Scan :=
  (c.check operator (content later (operands.drop start))).map fun _ =>
    ⟨start + (content later (operands.drop start)).length,
      s.bound ++ [(c.marker, content later (operands.drop start))]⟩

/-- One turn: the clause is bound if its marker comes next, and passed over if it may be missing. -/
def turn (c : Clause) (later : List Clause) (s : Scan) : Except Error Scan :=
  if operands[s.position]?.any (·.isKeyword c.marker) then
    s.bindAt operator operands c later (s.position + 1)
  else if c.presence.isRequired then .error (.malformed operator (.missingClause c.marker))
  else .ok s

/-- One turn for each clause. -/
def run : List Clause → Scan → Except Error Scan
  | [], s => .ok s
  | c :: later, s => s.turn operator operands c later >>= run later

/-- What is bound, unless an operand is left. -/
def finish (s : Scan) : Except Error Bound :=
  match operands[s.position]? with
  | some e => .error (.malformed operator (.leftOver e))
  | none => .ok s.bound

/-- The same scan one position further. -/
def next (s : Scan) : Scan :=
  { s with position := s.position + 1 }

end Scan

/-- Scans operands that start with a marker. -/
def scan (operator : String) (operands : List Expr) (clauses : List Clause) : Except Error Scan :=
  Scan.run operator operands clauses {}

/-- Scans operands whose first clause has no marker of its own. -/
def scanLeading (operator : String) (operands : List Expr) : List Clause → Except Error Scan
  | [] => .ok {}
  | c :: later => Scan.bindAt operator operands c later 0 {} >>= Scan.run operator operands later

/-! ## A scan reads what reading reads -/

/-- Whether a clause comes next is told by the operand at the position. -/
theorem after?_drop (c : Clause) (operands : List Expr) (n : Nat) :
    c.after? (operands.drop n) =
      if operands[n]?.any (·.isKeyword c.marker) then some (operands.drop (n + 1)) else none := by
  induction n generalizing operands with
  | zero => cases operands <;> simp [after?]
  | succ n ih =>
      cases operands with
      | nil => simp [after?]
      | cons e rest => simpa using ih rest

/-- What remains after a clause starts where its content ends. -/
theorem remainder_eq_drop (later : List Clause) (body : List Expr) :
    remainder later body = body.drop (content later body).length := by
  have h : content later body ++ remainder later body = body := List.takeWhile_append_dropWhile
  calc remainder later body
      = (content later body ++ remainder later body).drop (content later body).length :=
        List.drop_left.symm
    _ = body.drop (content later body).length := by rw [h]

private theorem eq_keyword_of_isKeyword {e : Expr} {name : String} (h : e.isKeyword name = true) :
    e = .keyword name := by
  cases e with
  | keyword n => exact congrArg Expr.keyword (beq_iff_eq.mp h)
  | _ => cases h

/-- What comes after the operands of a clause begins with the marker of a later one. -/
theorem marks_of_head?_remainder {later : List Clause} {body : List Expr} {e : Expr}
    (h : (remainder later body).head? = some e) : marks later e := by
  have hstop := List.head?_dropWhile_not (!marks later ·) body
  rw [← remainder, h] at hstop
  simpa using hstop

namespace Scan

variable {operator : String} {operands : List Expr}

/-- Binding a clause at a position and going on from there is taking it from the operands that are
    left. -/
theorem bindAt_finish {c : Clause} {later : List Clause} {start : Nat} {s : Scan}
    (hlater : ∀ t : Scan, run operator operands later t >>= finish operator operands =
      (readFrom operator later (operands.drop t.position)).map (t.bound ++ ·)) :
    (s.bindAt operator operands c later start >>= run operator operands later) >>=
        finish operator operands =
      (c.take operator later (operands.drop start) (readFrom operator later)).map
        (s.bound ++ ·) := by
  -- What comes after the operands of the clause is what is left from the new position on.
  rw [take, remainder_eq_drop, List.drop_drop, bindAt]
  cases c.check operator (content later (operands.drop start)) with
  | error x => rfl
  | ok _ =>
      refine (hlater _).trans ?_
      show (readFrom operator later _).map _ = (readFrom operator later _ >>= _).map _
      cases readFrom operator later
          (operands.drop (start + (content later (operands.drop start)).length)) with
      | error x => rfl
      | ok rest => exact congrArg Except.ok (List.append_assoc _ _ _)

/-- Reading clauses is a scan for them and then a look at what is left. -/
theorem run_finish (clauses : List Clause) (s : Scan) :
    run operator operands clauses s >>= finish operator operands =
      (readFrom operator clauses (operands.drop s.position)).map (s.bound ++ ·) := by
  induction clauses generalizing s with
  | nil =>
      show finish operator operands s = _
      rw [finish]
      cases hs : operands[s.position]? with
      | none =>
          rw [List.drop_eq_nil_of_le (List.getElem?_eq_none_iff.mp hs)]
          exact congrArg Except.ok (List.append_nil _).symm
      | some e =>
          obtain ⟨hlt, rfl⟩ := List.getElem?_eq_some_iff.mp hs
          rw [List.drop_eq_getElem_cons hlt]
          rfl
  | cons c later ih =>
      -- The operand at the position is the first of those that are left.
      rw [run, readFrom, after?_drop, turn]
      cases operands[s.position]?.any (·.isKeyword c.marker) with
      | true => exact bindAt_finish ih
      | false =>
          cases c.presence.isRequired with
          | true => rfl
          | false => exact ih s

/-! ## One turn -/

variable {clauses pending later : List Clause} {c : Clause} {s t : Scan} {x : Error}

/-- When its marker comes next, a clause is bound to what follows. -/
theorem turn_marked (h : operands[s.position]? = some (.keyword c.marker)) :
    s.turn operator operands c later = s.bindAt operator operands c later (s.position + 1) := by
  rw [turn, h, if_pos (by simp [Expr.isKeyword])]

/-- When its marker does not come next, a clause is passed over or missed. -/
theorem turn_unmarked (h : operands[s.position]? ≠ some (.keyword c.marker)) :
    s.turn operator operands c later =
      if c.presence.isRequired then .error (.malformed operator (.missingClause c.marker))
      else .ok s := by
  rw [turn, if_neg]
  rw [Option.any_eq_true]
  rintro ⟨e, he, hk⟩
  exact h (he.trans (congrArg some (eq_keyword_of_isKeyword hk)))

/-- A turn fails when a clause that has to be there is not, or has the wrong number of operands. -/
theorem turn_eq_error :
    s.turn operator operands c later = .error x ↔
      (operands[s.position]? ≠ some (.keyword c.marker) ∧ c.presence.isRequired ∧
        x = .malformed operator (.missingClause c.marker)) ∨
      (operands[s.position]? = some (.keyword c.marker) ∧
        ∃ n, c.miscount? (content later (operands.drop (s.position + 1))) = some n ∧
          x = .arity (operator ++ " :" ++ c.marker) n
            (content later (operands.drop (s.position + 1))).length) := by
  by_cases hm : operands[s.position]? = some (.keyword c.marker)
  · rw [turn_marked hm, bindAt, map_eq_error, check]
    constructor
    · intro h
      split at h
      next n hn =>
        cases h
        exact .inr ⟨hm, n, hn, rfl⟩
      next => cases h
    · rintro (⟨hne, -⟩ | ⟨-, n, hn, rfl⟩)
      · exact absurd hm hne
      · rw [hn]
  · rw [turn_unmarked hm]
    constructor
    · intro h
      split at h
      next hr =>
        cases h
        exact .inl ⟨hm, hr, rfl⟩
      next => cases h
    · rintro (⟨-, hr, rfl⟩ | ⟨heq, -⟩)
      · rw [if_pos hr]
      · exact absurd heq hm

/-! ## What every turn keeps -/

/-- The states between two turns of a scan, with the clauses that are still to come. -/
inductive Reaches (operator : String) (operands : List Expr) (clauses : List Clause) :
    List Clause → Scan → Prop where
  | start : Reaches operator operands clauses clauses {}
  | turn {c : Clause} {later : List Clause} {s t : Scan} :
      Reaches operator operands clauses (c :: later) s →
        s.turn operator operands c later = .ok t → Reaches operator operands clauses later t

/-- From a state between two turns a scan goes on as it does from the start. -/
theorem Reaches.run_eq (h : Reaches operator operands clauses pending s) :
    run operator operands clauses {} = run operator operands pending s := by
  induction h with
  | start => rfl
  | turn _ ht ih =>
      rw [ih, run, ht]
      rfl

/-- A scan that goes through reaches its end. -/
theorem Reaches.of_run_eq_ok (hs : Reaches operator operands clauses pending s)
    (h : run operator operands pending s = .ok t) : Reaches operator operands clauses [] t := by
  induction pending generalizing s with
  | nil =>
      cases h
      exact hs
  | cons c later ih =>
      obtain ⟨s', hs', h⟩ := bind_eq_ok.mp h
      exact ih (hs.turn hs') h

/-- A scan that fails does so in one of its turns. -/
theorem Reaches.of_run_eq_error (hs : Reaches operator operands clauses pending s)
    (h : run operator operands pending s = .error x) :
    ∃ c later t, Reaches operator operands clauses (c :: later) t ∧
      t.turn operator operands c later = .error x := by
  induction pending generalizing s with
  | nil => cases h
  | cons c later ih =>
      rcases bind_eq_error.mp h with h | ⟨s', hs', h⟩
      · exact ⟨c, later, s, hs, h⟩
      · exact ih (hs.turn hs') h

/-- Whether the clauses that were bound are what came before the position, and a clause that is
    still to come is next. -/
structure Poised (operands : List Expr) (pending : List Clause) (s : Scan) : Prop where
  /-- What was bound, written out again, is what was given up to the position. -/
  operands_eq : operands = s.bound.operands ++ operands.drop s.position
  position_eq : s.position = s.bound.operands.length
  /-- The next operand marks a clause that is still to come. -/
  marks_next : ∀ e, operands[s.position]? = some e → marks pending e

/-- A scan is poised at its start if a clause comes first. -/
theorem poised_start (h : ∀ e, operands.head? = some e → marks clauses e) :
    Poised operands clauses {} :=
  ⟨rfl, rfl, fun e he => h e (List.head?_eq_getElem? ▸ he)⟩

/-- Binding a clause keeps a scan poised. -/
theorem Poised.bind (hs : Poised operands (c :: later) s)
    (h : operands[s.position]? = some (.keyword c.marker)) :
    Poised operands later
      ⟨s.position + 1 + (content later (operands.drop (s.position + 1))).length,
        s.bound ++ [(c.marker, content later (operands.drop (s.position + 1)))]⟩ := by
  obtain ⟨hlt, hget⟩ := List.getElem?_eq_some_iff.mp h
  have hdrop : operands.drop s.position = .keyword c.marker :: operands.drop (s.position + 1) := by
    rw [List.drop_eq_getElem_cons hlt, hget]
  have hrest : operands.drop
      (s.position + 1 + (content later (operands.drop (s.position + 1))).length) =
      remainder later (operands.drop (s.position + 1)) := by
    rw [remainder_eq_drop, List.drop_drop]
  refine ⟨?_, ?_, fun e he => ?_⟩
  · show operands = Bound.operands (_ ++ _) ++ _
    rw [Bound.operands_append, hrest, Bound.operands_cons, Bound.operands_nil, List.append_nil,
      List.append_assoc, List.cons_append, content, remainder, List.takeWhile_append_dropWhile,
      ← hdrop]
    exact hs.operands_eq
  · show s.position + 1 + _ = (Bound.operands (_ ++ _)).length
    rw [Bound.operands_append, List.length_append, ← hs.position_eq, Bound.operands_cons,
      Bound.operands_nil, List.append_nil, List.length_cons]
    omega
  · rw [← List.head?_drop, hrest] at he
    exact marks_of_head?_remainder he

/-- Passing over a clause keeps a scan poised. -/
theorem Poised.skip (hs : Poised operands (c :: later) s)
    (h : operands[s.position]? ≠ some (.keyword c.marker)) : Poised operands later s := by
  refine ⟨hs.operands_eq, hs.position_eq, fun e he => ?_⟩
  -- The operand marks one of the clauses to come, and it is not this one.
  obtain ⟨d, hd, rfl⟩ := marks_eq_true.mp (hs.marks_next e he)
  rcases List.mem_cons.mp hd with rfl | hd
  · exact absurd he h
  · exact marks_eq_true.mpr ⟨d, hd, rfl⟩

/-- A turn keeps a scan poised. -/
theorem Poised.turn (hs : Poised operands (c :: later) s)
    (h : s.turn operator operands c later = .ok t) : Poised operands later t := by
  by_cases hm : operands[s.position]? = some (.keyword c.marker)
  · rw [turn_marked hm] at h
    obtain ⟨-, -, rfl⟩ := map_eq_ok.mp h
    exact hs.bind hm
  · rw [turn_unmarked hm] at h
    split at h
    · cases h
    · cases h
      exact hs.skip hm

/-- Started at a marker, a scan always comes to a halt before the marker of a clause to come. -/
theorem Reaches.poised (hstart : ∀ e, operands.head? = some e → marks clauses e)
    (h : Reaches operator operands clauses pending s) : Poised operands pending s := by
  induction h with
  | start => exact poised_start hstart
  | turn _ ht ih => exact ih.turn ht

/-- After the last turn no operand is left. -/
theorem Poised.position_eq_length (hs : Poised operands [] s) : s.position = operands.length := by
  have hle : s.position ≤ operands.length := by
    rw [hs.position_eq, hs.operands_eq, List.length_append]
    exact Nat.le_add_right _ _
  -- Nothing is still to come, so there is nothing that an operand at the position could mark.
  have hnone : operands[s.position]? = none := by
    cases he : operands[s.position]? with
    | none => rfl
    | some e =>
        obtain ⟨d, hd, -⟩ := marks_eq_true.mp (hs.marks_next e he)
        cases hd
  exact Nat.le_antisymm hle (List.getElem?_eq_none_iff.mp hnone)

/-- A look at what is left finds nothing when no operand is. -/
theorem bind_finish (operator : String) {y : Except Error Scan}
    (h : ∀ s, y = .ok s → s.position = operands.length) :
    y >>= finish operator operands = y.map (·.bound) := by
  cases y with
  | error x => rfl
  | ok s =>
      show finish operator operands s = _
      rw [finish, List.getElem?_eq_none (Nat.le_of_eq (h s rfl).symm)]
      rfl

/-! ## One more operand in front -/

/-- Binding is the same one position further, with one operand more in front. -/
theorem bindAt_cons (e : Expr) (start : Nat) :
    s.next.bindAt operator (e :: operands) c later (start + 1) =
      (s.bindAt operator operands c later start).map next := by
  rw [bindAt, bindAt, List.drop_succ_cons]
  cases c.check operator (content later (operands.drop start)) with
  | error x => rfl
  | ok _ =>
      refine congrArg Except.ok ?_
      show Scan.mk _ _ = Scan.mk _ _
      rw [Nat.add_right_comm]
      rfl

/-- So is a turn. -/
theorem turn_cons (e : Expr) :
    s.next.turn operator (e :: operands) c later = (s.turn operator operands c later).map next := by
  by_cases hm : operands[s.position]? = some (.keyword c.marker)
  · rw [turn_marked hm, ← bindAt_cons e]
    exact turn_marked hm
  · have hm' : (e :: operands)[s.next.position]? ≠ some (.keyword c.marker) := hm
    rw [turn_unmarked hm, turn_unmarked hm']
    cases c.presence.isRequired <;> rfl

/-- With one more operand in front, a scan takes the same turns one position further. -/
theorem run_cons (e : Expr) (clauses : List Clause) :
    run operator (e :: operands) clauses s.next = (run operator operands clauses s).map next := by
  induction clauses generalizing s with
  | nil => rfl
  | cons c later ih =>
      rw [run, run, turn_cons]
      cases s.turn operator operands c later with
      | error x => rfl
      | ok t => exact ih

end Scan

section Split

variable {operator : String} {clauses : List Clause} {operands : List Expr}

/-- A scan of a first clause without its marker is, one position further, a scan with it. -/
theorem scan_keyword (operator : String) (c : Clause) (later : List Clause) (operands : List Expr) :
    scan operator (.keyword c.marker :: operands) (c :: later) =
      (scanLeading operator operands (c :: later)).map Scan.next := by
  have hturn : Scan.turn operator (.keyword c.marker :: operands) c later {} =
      (Scan.bindAt operator operands c later 0 {}).map Scan.next :=
    (Scan.turn_marked rfl).trans (Scan.bindAt_cons (s := {}) _ 0)
  rw [scan, Scan.run, hturn, scanLeading]
  cases Scan.bindAt operator operands c later 0 {} with
  | error x => rfl
  | ok t => exact Scan.run_cons _ later

/-- A scan from a marker leaves no operand. -/
theorem position_of_scan (h : ∀ e, operands.head? = some e → marks clauses e) {s : Scan}
    (hs : scan operator operands clauses = .ok s) : s.position = operands.length :=
  ((Scan.Reaches.start.of_run_eq_ok hs).poised h).position_eq_length

private theorem marks_head_keyword (c : Clause) (later : List Clause) (operands : List Expr) :
    ∀ e, (Expr.keyword c.marker :: operands).head? = some e → marks (c :: later) e := by
  rintro e ⟨⟩
  exact marks_eq_true.mpr ⟨c, List.mem_cons_self, rfl⟩

/-- A scan of a first clause without its marker leaves no operand. -/
theorem position_of_scanLeading {c : Clause} {later : List Clause} {s : Scan}
    (hs : scanLeading operator operands (c :: later) = .ok s) : s.position = operands.length := by
  have hscan : scan operator (.keyword c.marker :: operands) (c :: later) = .ok s.next := by
    rw [scan_keyword, hs]
    rfl
  exact Nat.succ.inj (position_of_scan (marks_head_keyword c later operands) hscan)

private theorem map_nil_append (y : Except Error Bound) : y.map ([] ++ ·) = y := by
  cases y <;> rfl

/-- Operands that start with a marker are split by scanning them. -/
theorem split_eq_scan (h : ∀ e, operands.head? = some e → marks clauses e) :
    split operator clauses operands = (scan operator operands clauses).map (·.bound) := by
  have hread : split operator clauses operands = readFrom operator clauses operands := by
    cases operands with
    | nil => rfl
    | cons e rest => rw [split, if_pos (h e rfl)]
  -- A look at what is left changes nothing, and with it a scan is what reading does.
  rw [hread, ← Scan.bind_finish operator fun s => position_of_scan h, scan,
    Scan.run_finish]
  exact (map_nil_append _).symm

/-- Operands whose first clause has no marker are split by scanning them. -/
theorem splitLeading_eq_scan (c : Clause) (later : List Clause) :
    splitLeading operator (c :: later) operands =
      (scanLeading operator operands (c :: later)).map (·.bound) := by
  rw [← Scan.bind_finish operator fun s => position_of_scanLeading, scanLeading,
    Scan.bindAt_finish (Scan.run_finish later)]
  exact (map_nil_append _).symm

/-! ## Faults -/

/-- The faults of operands that have to start with a marker. -/
inductive Fault (operator : String) (clauses : List Clause) (operands : List Expr) : Error → Prop
  /-- The first operand marks no clause. -/
  | unmarked {e : Expr} (head : operands.head? = some e) (unknown : marks clauses e = false) :
      Fault operator clauses operands (.malformed operator (.noMarker e))
  /-- When a clause that has to be there has its turn, its marker does not come next. -/
  | missing {c : Clause} {later : List Clause} {s : Scan}
      (start : ∀ e, operands.head? = some e → marks clauses e)
      (reached : Scan.Reaches operator operands clauses (c :: later) s)
      (required : c.presence.isRequired)
      (absent : operands[s.position]? ≠ some (.keyword c.marker)) :
      Fault operator clauses operands (.malformed operator (.missingClause c.marker))
  /-- A clause is bound to the wrong number of operands. -/
  | miscounted {c : Clause} {later : List Clause} {s : Scan} {n : Count} {es : List Expr}
      (start : ∀ e, operands.head? = some e → marks clauses e)
      (reached : Scan.Reaches operator operands clauses (c :: later) s)
      (present : operands[s.position]? = some (.keyword c.marker))
      (content_eq : es = content later (operands.drop (s.position + 1)))
      (miscount : c.miscount? es = some n) :
      Fault operator clauses operands (.arity (operator ++ " :" ++ c.marker) n es.length)

/-- From a marker on, a scan fails with one of the faults. -/
theorem scan_eq_error (h : ∀ e, operands.head? = some e → marks clauses e) {x : Error} :
    scan operator operands clauses = .error x ↔ Fault operator clauses operands x := by
  constructor
  · intro hx
    obtain ⟨c, later, s, hs, ht⟩ := Scan.Reaches.start.of_run_eq_error hx
    rcases Scan.turn_eq_error.mp ht with ⟨habsent, hr, rfl⟩ | ⟨hpresent, n, hn, rfl⟩
    · exact .missing h hs hr habsent
    · exact .miscounted h hs hpresent rfl hn
  · intro hf
    cases hf with
    | unmarked head unknown =>
        rw [h _ head] at unknown
        cases unknown
    | missing _ hs hr habsent =>
        rw [scan, hs.run_eq, Scan.run, Scan.turn_eq_error.mpr (.inl ⟨habsent, hr, rfl⟩)]
        rfl
    | miscounted _ hs hpresent hes hn =>
        subst hes
        rw [scan, hs.run_eq, Scan.run, Scan.turn_eq_error.mpr (.inr ⟨hpresent, _, hn, rfl⟩)]
        rfl

/-- Splitting fails with the faults and with nothing else. -/
theorem split_eq_error {x : Error} :
    split operator clauses operands = .error x ↔ Fault operator clauses operands x := by
  by_cases h : ∀ e, operands.head? = some e → marks clauses e
  · rw [split_eq_scan h, map_eq_error, scan_eq_error h]
  · obtain ⟨e, hhead, hmarks⟩ : ∃ e, operands.head? = some e ∧ marks clauses e = false := by
      simpa using h
    obtain ⟨rest, rfl⟩ := List.head?_eq_some_iff.mp hhead
    rw [split, if_neg (by simp [hmarks])]
    constructor
    · intro hx
      cases hx
      exact .unmarked hhead hmarks
    · intro hf
      cases hf with
      | unmarked head _ =>
          cases head
          rfl
      | missing start => exact absurd start h
      | miscounted start => exact absurd start h

/-- A first marker that is left out may as well be written. -/
theorem splitLeading_eq_split (operator : String) (c : Clause) (later : List Clause)
    (operands : List Expr) :
    splitLeading operator (c :: later) operands =
      split operator (c :: later) (.keyword c.marker :: operands) := by
  rw [splitLeading_eq_scan, split_eq_scan (marks_head_keyword c later operands), scan_keyword]
  cases scanLeading operator operands (c :: later) <;> rfl

/-- An operand that is left over is none of the faults. -/
theorem Fault.ne_leftOver {x : Error} (h : Fault operator clauses operands x) (e : Expr) :
    x ≠ .malformed operator (.leftOver e) := by
  cases h <;> simp

end Split

/-- **A first clause without its marker is read as if the marker stood before it.**  Both ways of
    splitting bind the same clauses to the same operands or fail with the same error, and the two
    scans are one position apart from beginning to end. -/
theorem splitLeading_as_marked (operator : String) (c : Clause) (later : List Clause)
    (operands : List Expr) :
    splitLeading operator (c :: later) operands =
        split operator (c :: later) (.keyword c.marker :: operands) ∧
      scan operator (.keyword c.marker :: operands) (c :: later) =
        (scanLeading operator operands (c :: later)).map Scan.next :=
  ⟨splitLeading_eq_split operator c later operands, scan_keyword operator c later operands⟩

/-- **A scan leaves nothing over.**  Splitting is the scan alone: once every clause has had its
    turn, the position is the number of operands, and what is left need not be looked at.  So
    splitting fails exactly with the faults: a first operand that marks no clause, a clause that is
    missing, and one with the wrong number of operands; an operand left over is none of them. -/
theorem scan_leaves_nothing (operator : String) (clauses : List Clause) (operands : List Expr) :
    ((∀ e, operands.head? = some e → marks clauses e) →
        split operator clauses operands = (scan operator operands clauses).map (·.bound) ∧
          ∀ s, scan operator operands clauses = .ok s → s.position = operands.length) ∧
      (∀ x, split operator clauses operands = .error x ↔ Fault operator clauses operands x) ∧
      (∀ c later, clauses = c :: later →
        splitLeading operator clauses operands =
            (scanLeading operator operands clauses).map (·.bound) ∧
          (∀ s, scanLeading operator operands clauses = .ok s → s.position = operands.length) ∧
          ∀ x, splitLeading operator clauses operands = .error x ↔
            Fault operator clauses (.keyword c.marker :: operands) x) ∧
      ∀ e, split operator clauses operands ≠ .error (.malformed operator (.leftOver e)) ∧
        (clauses ≠ [] →
          splitLeading operator clauses operands ≠ .error (.malformed operator (.leftOver e))) := by
  refine ⟨fun h => ⟨split_eq_scan h, fun s => position_of_scan h⟩, fun x => split_eq_error, ?_,
    fun e => ⟨fun h => (split_eq_error.mp h).ne_leftOver e rfl, fun hne h => ?_⟩⟩
  · rintro c later rfl
    refine ⟨splitLeading_eq_scan c later, fun s => position_of_scanLeading, fun x => ?_⟩
    rw [splitLeading_eq_split, split_eq_error]
  · obtain ⟨c, later, rfl⟩ := List.exists_cons_of_ne_nil hne
    rw [splitLeading_eq_split] at h
    exact (split_eq_error.mp h).ne_leftOver e rfl

/-- Two clauses with one marker, the second bound to the marker of a clause that had its turn. -/
theorem scan_leaves_nothing_sameMarker :
    let clauses : List Clause :=
      [⟨"on", .optional, false⟩, ⟨"fields", .required, true⟩, ⟨"on", .optional, true⟩]
    let operands : List Expr :=
      [.keyword "on", .identifier "t", .keyword "fields", .identifier "a", .keyword "on",
        .identifier "b", .keyword "fields"]
    let b : Bound :=
      [("on", [.identifier "t"]), ("fields", [.identifier "a"]),
        ("on", [.identifier "b", .keyword "fields"])]
    (∀ e, operands.head? = some e → marks clauses e) ∧
      split "index" clauses operands = .ok b ∧
      (∃ s, scan "index" operands clauses = .ok s ∧ s.position = operands.length) ∧
      ∃ s, scanLeading "index" operands.tail clauses = .ok s ∧
        s.position = operands.tail.length := by
  intro clauses operands b
  have hstart : ∀ e, operands.head? = some e → marks clauses e := by
    rintro e ⟨⟩
    rfl
  have hscan : scan "index" operands clauses = .ok ⟨7, b⟩ := rfl
  have hleading : scanLeading "index" operands.tail clauses = .ok ⟨6, b⟩ := rfl
  obtain ⟨hmarked, -, -, -⟩ := scan_leaves_nothing "index" clauses operands
  obtain ⟨hsplit, hposition⟩ := hmarked hstart
  refine ⟨hstart, by rw [hsplit, hscan]; rfl, ⟨_, hscan, hposition _ hscan⟩, _, hleading, ?_⟩
  exact ((scan_leaves_nothing "index" clauses operands.tail).2.2.1 _ _ rfl).2.1 _ hleading

end Clause
end SqlForms
