import SqlForms.Json.Reader
import SqlForms.Proofs.Exchange.Tokens

/-! # Reading what was written

    The reader takes the tokens of a value to the place the value goes to,
    whatever containers are open around it: one lemma for values, one for
    items that an array still has to read and one for members, proved
    together along the value.  A value has to fit: not deeper than the room
    that is left, and with no member that the reader passes over.  A value
    that is deeper is refused, wherever it stands. -/

namespace SqlForms.Json

/-! ## What fits -/

mutual

/-- How deep the containers of a value are nested. -/
def depth : Json → Nat
  | .array items => depthAll items + 1
  | .object members => depthMembers members + 1
  | _ => 0

/-- How deep the containers of items are nested. -/
def depthAll : List Json → Nat
  | [] => 0
  | item :: items => max (depth item) (depthAll items)

/-- How deep the containers of members are nested. -/
def depthMembers : List (String × Json) → Nat
  | [] => 0
  | (_, value) :: members => max (depth value) (depthMembers members)

end

/-- Whether an object under a key is read for a member; every object under none is. -/
def Fields.admits (fields : Fields) (under : Option String) (key : String) : Bool :=
  ((under.bind fields).map (·.contains key)).getD true

mutual

/-- Whether no member of a value under a key is passed over. -/
def isKept (fields : Fields) (under : Option String) : Json → Bool
  | .array items => areKept fields items
  | .object members => membersKept fields under members
  | _ => true

/-- Whether no member of items is passed over. -/
def areKept (fields : Fields) : List Json → Bool
  | [] => true
  | item :: items => isKept fields none item && areKept fields items

/-- Whether no member of an object under a key is passed over, nor any inside it. -/
def membersKept (fields : Fields) (under : Option String) : List (String × Json) → Bool
  | [] => true
  | (key, value) :: members =>
      fields.admits under key && isKept fields (some key) value && membersKept fields under members

end

/-- Whether so many containers may still be opened. -/
def HasRoom (room : Option Nat) (n : Nat) : Prop :=
  ∀ r ∈ room, n ≤ r

/-- Room for containers is room for fewer. -/
theorem HasRoom.mono {room : Option Nat} {m n : Nat} (h : HasRoom room n) (hmn : m ≤ n) :
    HasRoom room m :=
  fun r hr => Nat.le_trans hmn (h r hr)

/-- A reader without a limit has room for everything. -/
theorem hasRoom_none (n : Nat) : HasRoom none n :=
  fun r hr => by cases hr

/-- A reader with a limit has room up to it. -/
theorem hasRoom_some {r n : Nat} : HasRoom (some r) n ↔ n ≤ r := by
  simp [HasRoom]

/-- There is always room for values without containers. -/
theorem hasRoom_zero (room : Option Nat) : HasRoom room 0 :=
  fun r _ => Nat.zero_le r

/-- What fits on its own fits together. -/
theorem HasRoom.max {room : Option Nat} {m n : Nat} (hm : HasRoom room m) (hn : HasRoom room n) :
    HasRoom room (Nat.max m n) :=
  fun r hr => Nat.max_le.mpr ⟨hm r hr, hn r hr⟩

/-- Entering a container takes one from the room, and leaving it gives that back. -/
theorem HasRoom.enter {room : Option Nat} {n : Nat} (h : HasRoom room (n + 1)) :
    ∃ inner, (Mode.keep room).enter? = some (.keep inner) ∧ (Mode.keep inner).leave = .keep room ∧
      HasRoom inner n := by
  cases room with
  | none => exact ⟨none, rfl, rfl, hasRoom_none n⟩
  | some r =>
      have hr : n + 1 ≤ r := h r rfl
      obtain ⟨k, rfl⟩ : ∃ k, r = k + 1 := ⟨r - 1, by omega⟩
      refine ⟨some k, rfl, rfl, ?_⟩
      rintro r' hr'
      cases hr'
      omega

/-- Where a container does not fit with what it holds, it is not entered, or what it holds does not
    fit inside it. -/
theorem enter?_of_not_hasRoom {room : Option Nat} {n : Nat} (h : ¬ HasRoom room (n + 1)) :
    (Mode.keep room).enter? = none ∨
      ∃ inner, (Mode.keep room).enter? = some (.keep inner) ∧ ¬ HasRoom inner n := by
  cases room with
  | none => exact absurd (hasRoom_none _) h
  | some r =>
      cases r with
      | zero => exact .inl rfl
      | succ k =>
          refine .inr ⟨some k, rfl, fun hinner => h (hasRoom_some.mpr ?_)⟩
          exact Nat.succ_le_succ (hasRoom_some.mp hinner)

/-- The key that a value in the given containers stands under. -/
def under : List Frame → Option String
  | .member _ key :: _ => some key
  | _ => none

/-- The reader looks at the key that an object stands under. -/
theorem keeps_eq (fields : Fields) (key : String) (frames : List Frame) :
    fields.keeps key frames = fields.admits (under frames) key := by
  unfold Fields.keeps
  split
  next => rfl
  next h =>
    unfold under
    split
    next => exact absurd rfl (h _ _ _)
    next => rfl

/-! ## Reading tokens -/

namespace Progress

/-- Reads tokens in turn. -/
def run (fields : Fields) (p : Progress) (ts : List JsonToken) : Option Progress :=
  ts.foldlM (step? fields) p

variable {fields : Fields}

/-- Reading goes on after a token that is read. -/
theorem run_cons {p q : Progress} {t : JsonToken} (h : p.step? fields t = some q)
    (ts : List JsonToken) : p.run fields (t :: ts) = q.run fields ts := by
  rw [run, List.foldlM_cons, h]
  rfl

/-- Reading goes on after tokens that are read. -/
theorem run_append {p q : Progress} {ts : List JsonToken} (h : p.run fields ts = some q)
    (ts' : List JsonToken) : p.run fields (ts ++ ts') = q.run fields ts' := by
  rw [run, List.foldlM_append]
  rw [run] at h
  rw [h]
  rfl

/-- Reading one token is one step. -/
theorem run_singleton (p : Progress) (t : JsonToken) : p.run fields [t] = p.step? fields t := by
  rw [run, List.foldlM_cons]
  simp

/-- Reading ends with a token that is refused. -/
theorem run_cons_of_none {p : Progress} {t : JsonToken} (h : p.step? fields t = none)
    (ts : List JsonToken) : p.run fields (t :: ts) = none := by
  rw [run, List.foldlM_cons, h]
  rfl

/-- Reading ends with tokens that are refused. -/
theorem run_append_of_none {p : Progress} {ts : List JsonToken} (h : p.run fields ts = none)
    (ts' : List JsonToken) : p.run fields (ts ++ ts') = none := by
  rw [run, List.foldlM_append]
  rw [run] at h
  rw [h]
  rfl

/-- Reading ends with the first of several runs of tokens if that is refused. -/
theorem run_intercalate_of_none {p : Progress} {ts : List JsonToken} (h : p.run fields ts = none)
    (sep : List JsonToken) (rest : List (List JsonToken)) :
    p.run fields (sep.intercalate (ts :: rest)) = none := by
  cases rest with
  | nil => simpa using h
  | cons next rest =>
      rw [List.intercalate_cons_cons, List.append_assoc]
      exact run_append_of_none h _

/-- An array is entered if its mode is, and refused otherwise. -/
theorem step?_openArray (fields : Fields) (mode : Mode) (frames : List Frame) :
    (inside mode frames .value).step? fields .openArray =
      mode.enter?.map fun inner => inside inner (.array [] :: frames) .firstItem :=
  rfl

/-- An object is entered if its mode is, and refused otherwise. -/
theorem step?_openObject (fields : Fields) (mode : Mode) (frames : List Frame) :
    (inside mode frames .value).step? fields .openObject =
      mode.enter?.map fun inner => inside inner (.object [] :: frames) .firstKey :=
  rfl

end Progress

/-- A value does not start with the end of an array, so the first item is read as any other. -/
theorem run_firstItem (fields : Fields) (mode : Mode) (frames : List Frame) {items : List Json}
    (hne : items ≠ []) (ts : List JsonToken) :
    (Progress.inside mode frames .firstItem).run fields
        ([.comma].intercalate (itemTokens items) ++ ts) =
      (Progress.inside mode frames .value).run fields
        ([.comma].intercalate (itemTokens items) ++ ts) := by
  obtain ⟨item, items, rfl⟩ := List.exists_cons_of_ne_nil hne
  rw [itemTokens]
  cases items with
  | nil => cases item <;> rfl
  | cons _ _ => cases item <;> rfl

/-- Neither does a member start with the end of an object. -/
theorem run_firstKey (fields : Fields) (mode : Mode) (frames : List Frame)
    {members : List (String × Json)} (hne : members ≠ []) (ts : List JsonToken) :
    (Progress.inside mode frames .firstKey).run fields
        ([.comma].intercalate (memberTokens members) ++ ts) =
      (Progress.inside mode frames .key).run fields
        ([.comma].intercalate (memberTokens members) ++ ts) := by
  obtain ⟨m, members, rfl⟩ := List.exists_cons_of_ne_nil hne
  rw [memberTokens]
  cases members with
  | nil => rfl
  | cons _ _ => rfl

private theorem itemTokens_ne_nil {items : List Json} (h : items ≠ []) : itemTokens items ≠ [] := by
  obtain ⟨item, items, rfl⟩ := List.exists_cons_of_ne_nil h
  rw [itemTokens]
  exact List.cons_ne_nil _ _

private theorem memberTokens_ne_nil {members : List (String × Json)} (h : members ≠ []) :
    memberTokens members ≠ [] := by
  obtain ⟨m, members, rfl⟩ := List.exists_cons_of_ne_nil h
  rw [memberTokens]
  exact List.cons_ne_nil _ _

/-- The key of a member and its colon are read, and then its value. -/
theorem run_member (fields : Fields) (before : List (String × Json)) (frames : List Frame)
    {room : Option Nat} {key : String} {ts : List JsonToken} {result : Option Progress}
    (hkey : fields.admits (under frames) key = true)
    (hvalue : (Progress.inside (.keep room) (.member before key :: frames) .value).run fields ts =
      result) :
    (Progress.inside (.keep room) (.object before :: frames) .key).run fields
      (.text (some key) :: .colon :: ts) = result := by
  have hstep : (Progress.inside (.keep room) (.object before :: frames) .key).step? fields
      (.text (some key)) =
        some (.inside (.keep room) (.member before key :: frames) .colon) := by
    simp [Progress.step?, Progress.key?, Mode.content?, keeps_eq, hkey]
  rw [Progress.run_cons hstep, Progress.run_cons (q := .inside (.keep room)
    (.member before key :: frames) .value) rfl, hvalue]

mutual

/-- Reading the tokens of a value puts it where the containers around it have it. -/
theorem run_tokens (fields : Fields) (j : Json) (frames : List Frame) {room : Option Nat}
    (hroom : HasRoom room j.depth) (hkept : j.isKept fields (under frames)) :
    (Progress.inside (.keep room) frames .value).run fields j.tokens =
      Progress.place? (.keep room) j frames := by
  cases j with
  | array items =>
      rw [depth] at hroom
      rw [isKept] at hkept
      obtain ⟨inner, henter, hleave, hinner⟩ := hroom.enter
      have hopen := Progress.step?_openArray fields (.keep room) frames
      rw [henter] at hopen
      rw [tokens, Progress.run_cons hopen]
      by_cases hne : items = []
      · subst hne
        show (Progress.inside _ _ .firstItem).run fields [.closeArray] = _
        rw [Progress.run_singleton, ← hleave]
        rfl
      · rw [run_firstItem fields _ _ hne,
          Progress.run_append (run_items fields items [] frames hne hinner hkept),
          Progress.run_singleton, ← hleave]
        simp [Progress.step?, Progress.leave?]
  | object members =>
      rw [depth] at hroom
      rw [isKept] at hkept
      obtain ⟨inner, henter, hleave, hinner⟩ := hroom.enter
      have hopen := Progress.step?_openObject fields (.keep room) frames
      rw [henter] at hopen
      rw [tokens, Progress.run_cons hopen]
      by_cases hne : members = []
      · subst hne
        show (Progress.inside _ _ .firstKey).run fields [.closeObject] = _
        rw [Progress.run_singleton, ← hleave]
        rfl
      · rw [run_firstKey fields _ _ hne,
          Progress.run_append (run_members fields members [] frames hne hinner hkept),
          Progress.run_singleton, ← hleave]
        simp [Progress.step?, Progress.leave?]
  | _ => exact Progress.run_singleton _ _

/-- Reading the items that an array still has puts them into it. -/
theorem run_items (fields : Fields) (items before : List Json) (frames : List Frame)
    (hne : items ≠ []) {room : Option Nat} (hroom : HasRoom room (depthAll items))
    (hkept : areKept fields items) :
    (Progress.inside (.keep room) (.array before :: frames) .value).run fields
        ([.comma].intercalate (itemTokens items)) =
      some (.inside (.keep room) (.array (items.reverse ++ before) :: frames) .next) := by
  cases items with
  | nil => exact absurd rfl hne
  | cons item items =>
      rw [depthAll] at hroom
      rw [areKept, Bool.and_eq_true] at hkept
      have hitem := run_tokens fields item (.array before :: frames)
        (hroom.mono (Nat.le_max_left _ _)) hkept.1
      rw [itemTokens]
      by_cases hrest : items = []
      · subst hrest
        simpa [itemTokens, Progress.place?] using hitem
      · have hmore := run_items fields items (item :: before) frames hrest
          (hroom.mono (Nat.le_max_right _ _)) hkept.2
        rw [List.intercalate_cons_of_ne_nil (itemTokens_ne_nil hrest), List.append_assoc,
          Progress.run_append hitem, List.singleton_append, Progress.run_cons (q := .inside
            (.keep room) (.array (item :: before) :: frames) .value) rfl, hmore]
        simp

/-- Reading the members that an object still has puts them into it. -/
theorem run_members (fields : Fields) (members before : List (String × Json))
    (frames : List Frame) (hne : members ≠ []) {room : Option Nat}
    (hroom : HasRoom room (depthMembers members))
    (hkept : membersKept fields (under frames) members) :
    (Progress.inside (.keep room) (.object before :: frames) .key).run fields
        ([.comma].intercalate (memberTokens members)) =
      some (.inside (.keep room) (.object (members.reverse ++ before) :: frames) .next) := by
  cases members with
  | nil => exact absurd rfl hne
  | cons m members =>
      obtain ⟨key, value⟩ := m
      rw [depthMembers] at hroom
      rw [membersKept, Bool.and_eq_true, Bool.and_eq_true] at hkept
      have hvalue := run_tokens fields value (.member before key :: frames)
        (hroom.mono (Nat.le_max_left _ _)) hkept.1.2
      have hmember := run_member fields before frames hkept.1.1 hvalue
      rw [memberTokens]
      by_cases hrest : members = []
      · subst hrest
        simpa [memberTokens, Progress.place?] using hmember
      · have hmore := run_members fields members ((key, value) :: before) frames hrest
          (hroom.mono (Nat.le_max_right _ _)) hkept.2
        rw [List.intercalate_cons_of_ne_nil (memberTokens_ne_nil hrest), List.append_assoc,
          Progress.run_append hmember, List.singleton_append, Progress.run_cons (q := .inside
            (.keep room) (.object ((key, value) :: before) :: frames) .key) rfl, hmore]
        simp

end

/-! ## Reading what is too deep -/

mutual

/-- The tokens of a value that is too deep for the room that is left are refused. -/
theorem run_tokens_of_deep (fields : Fields) (j : Json) (frames : List Frame) {room : Option Nat}
    (hdeep : ¬ HasRoom room j.depth) (hkept : j.isKept fields (under frames)) :
    (Progress.inside (.keep room) frames .value).run fields j.tokens = none := by
  cases j with
  | array items =>
      rw [depth] at hdeep
      rw [isKept] at hkept
      rw [tokens]
      have hopen := Progress.step?_openArray fields (.keep room) frames
      -- There is no room for the array itself, or none for what it holds.
      rcases enter?_of_not_hasRoom hdeep with hfull | ⟨inner, henter, hinner⟩
      · rw [hfull] at hopen
        exact Progress.run_cons_of_none hopen _
      · rw [henter] at hopen
        have hne : items ≠ [] := by
          rintro rfl
          exact hinner (hasRoom_zero inner)
        rw [Progress.run_cons hopen, run_firstItem fields _ _ hne]
        exact Progress.run_append_of_none (run_items_of_deep fields items [] frames hinner hkept) _
  | object members =>
      rw [depth] at hdeep
      rw [isKept] at hkept
      rw [tokens]
      have hopen := Progress.step?_openObject fields (.keep room) frames
      rcases enter?_of_not_hasRoom hdeep with hfull | ⟨inner, henter, hinner⟩
      · rw [hfull] at hopen
        exact Progress.run_cons_of_none hopen _
      · rw [henter] at hopen
        have hne : members ≠ [] := by
          rintro rfl
          exact hinner (hasRoom_zero inner)
        rw [Progress.run_cons hopen, run_firstKey fields _ _ hne]
        exact Progress.run_append_of_none
          (run_members_of_deep fields members [] frames hinner hkept) _
  | _ => exact absurd (hasRoom_zero room) hdeep

/-- Items of an array with one that is too deep are refused: those before it are read, and it is
    not. -/
theorem run_items_of_deep (fields : Fields) (items before : List Json) (frames : List Frame)
    {room : Option Nat} (hdeep : ¬ HasRoom room (depthAll items))
    (hkept : areKept fields items) :
    (Progress.inside (.keep room) (.array before :: frames) .value).run fields
        ([.comma].intercalate (itemTokens items)) = none := by
  cases items with
  | nil => exact absurd (hasRoom_zero room) hdeep
  | cons item items =>
      rw [depthAll] at hdeep
      rw [areKept, Bool.and_eq_true] at hkept
      rw [itemTokens]
      -- The items before the one that is too deep are read; this one may be it.
      by_cases hfits : HasRoom room item.depth
      · have hrest : ¬ HasRoom room (depthAll items) := fun h => hdeep (hfits.max h)
        have hne : items ≠ [] := by
          rintro rfl
          exact hrest (hasRoom_zero room)
        have hitem := run_tokens fields item (.array before :: frames) hfits hkept.1
        rw [List.intercalate_cons_of_ne_nil (itemTokens_ne_nil hne), List.append_assoc,
          Progress.run_append hitem, List.singleton_append, Progress.run_cons (q := .inside
            (.keep room) (.array (item :: before) :: frames) .value) rfl]
        exact run_items_of_deep fields items (item :: before) frames hrest hkept.2
      · have hitem := run_tokens_of_deep fields item (.array before :: frames) hfits hkept.1
        exact Progress.run_intercalate_of_none hitem _ _

/-- Members of an object with one that is too deep are refused as well. -/
theorem run_members_of_deep (fields : Fields) (members before : List (String × Json))
    (frames : List Frame) {room : Option Nat} (hdeep : ¬ HasRoom room (depthMembers members))
    (hkept : membersKept fields (under frames) members) :
    (Progress.inside (.keep room) (.object before :: frames) .key).run fields
        ([.comma].intercalate (memberTokens members)) = none := by
  cases members with
  | nil => exact absurd (hasRoom_zero room) hdeep
  | cons m members =>
      obtain ⟨key, value⟩ := m
      rw [depthMembers] at hdeep
      rw [membersKept, Bool.and_eq_true, Bool.and_eq_true] at hkept
      rw [memberTokens]
      by_cases hfits : HasRoom room value.depth
      · have hrest : ¬ HasRoom room (depthMembers members) := fun h => hdeep (hfits.max h)
        have hne : members ≠ [] := by
          rintro rfl
          exact hrest (hasRoom_zero room)
        have hmember := run_member fields before frames hkept.1.1
          (run_tokens fields value (.member before key :: frames) hfits hkept.1.2)
        rw [List.intercalate_cons_of_ne_nil (memberTokens_ne_nil hne), List.append_assoc,
          Progress.run_append hmember, List.singleton_append, Progress.run_cons (q := .inside
            (.keep room) (.object ((key, value) :: before) :: frames) .key) rfl]
        exact run_members_of_deep fields members ((key, value) :: before) frames hrest hkept.2
      · have hmember := run_member fields before frames hkept.1.1
          (run_tokens_of_deep fields value (.member before key :: frames) hfits hkept.1.2)
        exact Progress.run_intercalate_of_none hmember _ _

end

/-! ## Reading texts -/

private theorem readFields?_write_eq_run (fields : Fields) (room : Option Nat) (j : Json) :
    readFields? fields room j.write =
      ((Progress.inside (.keep room) [] .value).run fields j.tokens).bind Progress.finish? := by
  rw [readFields?, scan?_write]
  rfl

/-- A written value is read back if it fits within the limit on nesting, and refused otherwise. -/
theorem readFields?_write {fields : Fields} {limit : Nat} {j : Json}
    (hkept : j.isKept fields none) :
    readFields? fields (some limit) j.write = if j.depth ≤ limit then some j else none := by
  rw [readFields?_write_eq_run]
  by_cases hdepth : j.depth ≤ limit
  · rw [run_tokens fields j [] (hasRoom_some.mpr hdepth) hkept, if_pos hdepth]
    rfl
  · rw [run_tokens_of_deep fields j [] (fun h => hdepth (hasRoom_some.mp h)) hkept,
      if_neg hdepth]
    rfl

end SqlForms.Json
