import SqlForms.Compiler
import SqlForms.Proofs.Registered

/-! # Registering an operator is local

    An operator that is registered changes what is found under its tag, what
    is written for operations of that tag, and nothing else.

    * A registry lists its tags in the order of their bytes.  They are kept
      in the order of their characters, and the encoding of characters keeps
      that order (`Text.encode_lt_encode`), whatever comes after them.
    * `Expr.tags` are the tags of the operations of a tree at any depth.
      Registries that lay out these operations alike make the same atoms of
      the tree (`Registry.atoms_congr`): a form cannot look anything up, it
      only names operands. -/

namespace SqlForms

/-! ## The order of bytes -/

namespace Text

/-- The bytes of a text. -/
def bytes (s : String) : List UInt8 :=
  s.toUTF8.data.toList

private theorem bytes_eq (s : String) : bytes s = s.toList.flatMap String.utf8EncodeChar := by
  show s.toByteArray.data.toList = _
  rw [← String.utf8Encode_toList]
  simp [List.utf8Encode]

/-- The bytes of the character with a code, as numbers: a first one that tells how many there are,
    and six bits of the code in each of the others. -/
inductive Encoded (code : Nat) : List Nat → Prop where
  | one : code ≤ 0x7f → Encoded code [code]
  | two : 0x7f < code → code ≤ 0x7ff → Encoded code [code / 64 + 0xc0, code % 64 + 0x80]
  | three : 0x7ff < code → code ≤ 0xffff →
      Encoded code [code / 4096 + 0xe0, code / 64 % 64 + 0x80, code % 64 + 0x80]
  | four : 0xffff < code → code < 0x110000 →
      Encoded code
        [code / 262144 + 0xf0, code / 4096 % 64 + 0x80, code / 64 % 64 + 0x80, code % 64 + 0x80]

/-- The encoding of a character is the one its code point tells. -/
theorem encode_eq (c : Char) :
    ∃ ns, Encoded c.toNat ns ∧ String.utf8EncodeChar c = ns.map UInt8.ofNat := by
  have hc : c.val.toNat < 0x110000 := by
    have := c.valid
    simp only [UInt32.isValidChar, Nat.isValidChar] at this
    omega
  show ∃ ns, Encoded c.val.toNat ns ∧ _
  simp only [String.utf8EncodeChar]
  generalize c.val.toNat = v at hc ⊢
  split
  · exact ⟨_, .one ‹_›, rfl⟩
  · split
    · refine ⟨_, .two (by omega) ‹_›, ?_⟩
      rw [Nat.mod_eq_of_lt (by omega : v / 64 < 32)]
      rfl
    · split
      · refine ⟨_, .three (by omega) ‹_›, ?_⟩
        rw [Nat.mod_eq_of_lt (by omega : v / 4096 < 16)]
        rfl
      · refine ⟨_, .four (by omega) hc, ?_⟩
        rw [Nat.mod_eq_of_lt (by omega : v / 262144 < 8)]
        rfl

/-- Bytes are in order when the first are, or when these agree and those after them are. -/
theorem ofNat_cons_lt {a b : Nat} {xs ys : List UInt8} (hb : b < 256) (hab : a ≤ b)
    (h : a = b → xs < ys) : UInt8.ofNat a :: xs < UInt8.ofNat b :: ys := by
  rw [List.cons_lt_cons_iff]
  rcases Nat.lt_or_eq_of_le hab with hab | rfl
  · refine .inl ?_
    rw [UInt8.lt_iff_toNat_lt, UInt8.toNat_ofNat', UInt8.toNat_ofNat']
    omega
  · exact .inr ⟨rfl, h rfl⟩

/-- Characters are in the order of their bytes, whatever comes after them. -/
theorem encode_lt_encode {c d : Char} (h : c < d) (x y : List UInt8) :
    String.utf8EncodeChar c ++ x < String.utf8EncodeChar d ++ y := by
  have h : c.toNat < d.toNat := h
  obtain ⟨ns, hns, hc⟩ := encode_eq c
  obtain ⟨ms, hms, hd⟩ := encode_eq d
  rw [hc, hd]
  -- With different numbers of bytes the first ones differ, otherwise the codes do within them.
  cases hns with
  | one =>
      cases hms with
      | one => exact ofNat_cons_lt (by omega) (by omega) (by omega)
      | two => exact ofNat_cons_lt (by omega) (by omega) (by omega)
      | three => exact ofNat_cons_lt (by omega) (by omega) (by omega)
      | four => exact ofNat_cons_lt (by omega) (by omega) (by omega)
  | two =>
      cases hms with
      | one => omega
      | two =>
          refine ofNat_cons_lt (by omega) (by omega) fun h1 => ?_
          exact ofNat_cons_lt (by omega) (by omega) (by omega)
      | three => exact ofNat_cons_lt (by omega) (by omega) (by omega)
      | four => exact ofNat_cons_lt (by omega) (by omega) (by omega)
  | three =>
      cases hms with
      | one => omega
      | two => omega
      | three =>
          refine ofNat_cons_lt (by omega) (by omega) fun h1 => ?_
          refine ofNat_cons_lt (by omega) (by omega) fun h2 => ?_
          exact ofNat_cons_lt (by omega) (by omega) (by omega)
      | four => exact ofNat_cons_lt (by omega) (by omega) (by omega)
  | four =>
      cases hms with
      | one => omega
      | two => omega
      | three => omega
      | four =>
          refine ofNat_cons_lt (by omega) (by omega) fun h1 => ?_
          refine ofNat_cons_lt (by omega) (by omega) fun h2 => ?_
          refine ofNat_cons_lt (by omega) (by omega) fun h3 => ?_
          exact ofNat_cons_lt (by omega) (by omega) (by omega)

/-- Texts are in the order of their encodings. -/
theorem encodeAll_lt_encodeAll {cs ds : List Char} (h : cs < ds) :
    cs.flatMap String.utf8EncodeChar < ds.flatMap String.utf8EncodeChar := by
  induction cs generalizing ds with
  | nil =>
      cases ds with
      | nil => cases h
      | cons d ds =>
          obtain ⟨b, bs, hb⟩ := List.exists_cons_of_ne_nil (String.utf8EncodeChar_ne_nil (c := d))
          rw [List.flatMap_nil, List.flatMap_cons, hb]
          exact List.nil_lt_cons _ _
  | cons c cs ih =>
      cases ds with
      | nil => cases h
      | cons d ds =>
          rw [List.flatMap_cons, List.flatMap_cons]
          rcases List.cons_lt_cons_iff.mp h with hcd | ⟨rfl, hrest⟩
          · exact encode_lt_encode hcd _ _
          · exact List.append_left_lt (ih hrest)

/-- Texts are in the order of their bytes. -/
theorem bytes_lt_bytes {s t : String} (h : s < t) : bytes s < bytes t := by
  rw [bytes_eq, bytes_eq]
  exact encodeAll_lt_encodeAll h

end Text

/-! ## The tags of a tree -/

namespace Expr

mutual

/-- The tags of the operations of a tree, at any depth. -/
def tags : Expr → List String
  | .operation tag operands => tag :: tagsAll operands
  | .list items => tagsAll items
  | _ => []

/-- The tags of the operations of trees. -/
def tagsAll : List Expr → List String
  | [] => []
  | e :: es => tags e ++ tagsAll es

end

private theorem tags_subset_tagsAll {es : List Expr} {e : Expr} (h : e ∈ es) :
    e.tags ⊆ tagsAll es := by
  induction es with
  | nil => cases h
  | cons x xs ih =>
      rw [tagsAll]
      rcases List.mem_cons.mp h with rfl | h
      · exact List.subset_append_left _ _
      · exact List.Subset.trans (ih h) (List.subset_append_right _ _)

/-- What a form reaches has only tags of the operands. -/
theorem tags_subset_of_reach {es : List Expr} {e : Expr} (h : Reach es e) :
    e.tags ⊆ tagsAll es := by
  induction h with
  | operand hm => exact tags_subset_tagsAll hm
  | @item items e _ hm ih =>
      rw [tags] at ih
      exact List.Subset.trans (tags_subset_tagsAll hm) ih

/-- The tags of a tree in the layout of another are among those of the other. -/
theorem tags_subset_of_part_mem {r : Registry} {e x : Expr} (h : .part x ∈ r.layoutOf e) :
    x.tags ⊆ e.tags := by
  obtain ⟨es, rfl | ⟨tag, rfl⟩, hx⟩ := Registry.reach_of_part_mem h
  · rw [tags]
    exact tags_subset_of_reach hx
  · rw [tags]
    exact List.Subset.trans (tags_subset_of_reach hx) (List.subset_cons_self _ _)

end Expr

/-! ## Registries that agree on the tags of a tree -/

namespace Registry

variable {r r' : Registry}

/-- Registries that agree on the trees of a layout agree on its atoms. -/
theorem atomsOf_congr {l : Layout} (h : ∀ x, .part x ∈ l → r.atoms x = r'.atoms x) :
    r.atomsOf l = r'.atomsOf l := by
  induction l with
  | nil => rfl
  | cons piece l ih =>
      have ih := ih fun x hx => h x (List.mem_cons_of_mem _ hx)
      cases piece with
      | atom a => rw [atomsOf_atom, atomsOf_atom, ih]
      | part x => rw [atomsOf_part, atomsOf_part, ih, h x List.mem_cons_self]

/-- A tree has the same atoms under registries that lay out its operations alike. -/
theorem atoms_congr (e : Expr) (h : ∀ tag ∈ e.tags, r.layout tag = r'.layout tag) :
    r.atoms e = r'.atoms e := by
  induction e using r.induction with
  | step e ih =>
      have hlayout : r.layoutOf e = r'.layoutOf e := by
        cases e with
        | operation tag es =>
            rw [layoutOf, layoutOf, h tag (by rw [Expr.tags]; exact List.mem_cons_self)]
        | _ => rfl
      rw [atoms_eq, atoms_eq, ← hlayout]
      exact atomsOf_congr fun x hx => ih x hx fun tag ht =>
        h tag (Expr.tags_subset_of_part_mem hx ht)

/-- Registering an operator keeps the layouts of all other tags. -/
theorem Declared.layout_insert (hr : r.Declared) {o : Operator} (ho : o.isDeclarative)
    {tag t : String} (ht : tag ≠ t) : (r.insert t o).layout tag = r.layout tag := by
  funext es
  rw [layout_eq (hr.insert ho).next?_eq_none, layout_eq hr.next?_eq_none, get?_insert,
    if_neg ht.symm]
  rfl

/-- A registry lists its tags in the order of their bytes. -/
theorem pairwise_tags (r : Registry) :
    r.tags.Pairwise fun a b => Text.bytes a < Text.bytes b := by
  have hlt : ∀ a b : String, compare a b = .lt → a < b := by
    intro a b h
    exact compareOfLessAndEq_eq_lt.mp h
  exact r.operators.ordered_keys.imp fun h => Text.bytes_lt_bytes (hlt _ _ h)

/-- A registry lists the tags under which it finds an operator. -/
theorem mem_tags {r : Registry} {t : String} : t ∈ r.tags ↔ (r.get? t).isSome := by
  rw [tags, Std.TreeMap.mem_keys, Std.TreeMap.mem_iff_isSome_getElem?]
  rfl

/-- **Registering an operator is local.**  It is found under its tag, and under every other tag
    what was found before; the tags under which something is found are listed in the order of
    their bytes, each once; and a tree without operations of the tag is written as before. -/
theorem insert_local (r : Registry) (hr : r.Declared) (t : String) (o : Operator)
    (ho : o.isDeclarative) :
    (r.insert t o).get? t = some o ∧
      (∀ u, u ≠ t → (r.insert t o).get? u = r.get? u) ∧
      (r.insert t o).tags.Pairwise (fun a b => Text.bytes a < Text.bytes b) ∧
      (∀ u, u ∈ (r.insert t o).tags ↔ ((r.insert t o).get? u).isSome) ∧
      ∀ (e : Expr) (config : Config) (mode : Mode), t ∉ e.tags →
        Compiler.write ⟨r.insert t o, config, mode⟩ e = Compiler.write ⟨r, config, mode⟩ e := by
  refine ⟨?_, fun u hu => ?_, pairwise_tags _, fun u => mem_tags, fun e config mode he => ?_⟩
  · rw [get?_insert, if_pos rfl]
  · rw [get?_insert, if_neg hu.symm]
  · have hatoms : (r.insert t o).atoms e = r.atoms e := by
      refine atoms_congr e fun tag htag => hr.layout_insert ho ?_
      rintro rfl
      exact he htag
    simp only [Compiler.write, Compiler.writeInto, hatoms]
    rfl

/-- A new operator beside the built-in ones, and a condition that does not use it. -/
theorem insert_local_regexp :
    let r := builtin.strict
    let r' := r.insert "regexp" (.twoOrMore "~")
    let e : Expr := .operation "=" [.identifier "id", .placeholder ⟨some "regexp"⟩]
    r.Declared ∧ "regexp" ∉ e.tags ∧ r'.get? "regexp" = some (.twoOrMore "~") ∧
      r'.get? "=" = some (.twoOrMore "=") ∧ "regexp" ∈ r'.tags ∧
      ∀ config mode, Compiler.write ⟨r', config, mode⟩ e = Compiler.write ⟨r, config, mode⟩ e := by
  intro r r' e
  have hr : r.Declared := .strict .builtin
  have he : "regexp" ∉ e.tags := by decide
  obtain ⟨hself, hother, -, hmem, hwrite⟩ := insert_local r hr "regexp" (.twoOrMore "~") rfl
  refine ⟨hr, he, hself, ?_, ?_, fun config mode => hwrite e config mode he⟩
  · rw [hother "=" (by decide)]
    show builtin.get? "=" = _
    rw [get?_builtin]
    rfl
  · rw [hmem, hself]
    rfl

end Registry
end SqlForms
