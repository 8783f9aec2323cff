import SqlForms.Proofs.Registered
import SqlForms.Proofs.Readability.Words

/-! # Phrases

    An operation is written in parentheses around a phrase: its operands and
    the words of its operator, each after a space.  A phrase tells the text
    of its operator and its operands, and among the operators of the five
    classes that text tells the tag.  The words of operators have none of the
    characters of plain names. -/

namespace SqlForms

/-- Whether a class of operators takes that many operands. -/
def Operator.admits : Operator → Nat → Bool
  | .unary _, n => n == 1
  | .trailing _, n => n == 1
  | .nary _, n => decide (1 ≤ n)
  | .twoOrMore _, n => decide (2 ≤ n)
  | .naryOrUnary _, n => decide (1 ≤ n)
  | .custom _, _ => false
  | .continued _ _, _ => false

/-- The text of an operator that belongs to a class. -/
def Operator.sql? : Operator → Option String
  | .unary sql => some sql
  | .trailing sql => some sql
  | .nary sql => some sql
  | .twoOrMore sql => some sql
  | .naryOrUnary sql => some sql
  | .custom _ => none
  | .continued _ _ => none

namespace Readability

/-! ## Texts -/

/-- How an atom of an expression is spelled where names are not quoted. -/
def spelling : Atom → List Char
  | .text s => s.toList
  | .name n => Name.chars false n.toList
  | .literal (.int n) => (toString n.toInt).toList
  | _ => []

/-- The text of a layout. -/
def textOf (l : Layout) : List Char :=
  (Registry.builtin.atomsOf l).flatMap spelling

/-- The text of an expression. -/
def text (e : Expr) : List Char :=
  (Registry.builtin.atoms e).flatMap spelling

/-- The text of a tree is that of its layout. -/
theorem text_eq (e : Expr) : text e = textOf (Registry.builtin.layoutOf e) := by
  rw [text, Registry.atoms_eq, textOf]

@[simp] private theorem textOf_nil : textOf [] = [] := rfl

@[simp] private theorem textOf_atom (a : Atom) (l : Layout) :
    textOf (.atom a :: l) = spelling a ++ textOf l := rfl

@[simp] private theorem textOf_part (e : Expr) (l : Layout) :
    textOf (.part e :: l) = text e ++ textOf l := by
  simp [textOf, text]

@[simp] private theorem textOf_append (l l' : Layout) :
    textOf (l ++ l') = textOf l ++ textOf l' := by
  simp [textOf, Registry.atomsOf]

@[simp] private theorem spelling_text (s : String) : spelling (.text s) = s.toList := rfl

/-- An integer is written in decimal. -/
theorem text_int (n : Int64) : text (.literal (.int n)) = (toString n.toInt).toList := by
  rw [text_eq]
  exact List.append_nil _

/-- A plain name is written as it is. -/
theorem text_name {n : String} (h : isPlainName n.toList) : text (.identifier n) = n.toList := by
  rw [text_eq]
  exact (List.append_nil _).trans (chars_of_isPlainName h)

/-- A built-in operation is laid out by its operator. -/
theorem layoutOf_operation {tag : String} {o : Operator} (h : Registry.builtin.get? tag = some o)
    (es : List Expr) : Registry.builtin.layoutOf (.operation tag es) = o.layout tag es := by
  rw [Registry.layoutOf, Registry.layout_eq Registry.Declared.builtin.next?_eq_none, h]

/-- Every other operation is a call. -/
theorem layoutOf_call {tag : String} (h : Registry.builtin.get? tag = none) (es : List Expr) :
    Registry.builtin.layoutOf (.operation tag es) = Registry.call tag es := by
  rw [Registry.layoutOf, Registry.layout_eq Registry.Declared.builtin.next?_eq_none, h]
  rfl

/-- Joined trees are the first one and each other after the separator. -/
theorem textOf_joined (separator : String) (e : Expr) (es : List Expr) :
    textOf (.joined separator (e :: es)) =
      text e ++ es.flatMap fun x => separator.toList ++ text x := by
  induction es generalizing e with
  | nil => simp [Layout.joined]
  | cons x es ih =>
      rw [Layout.joined, textOf_part, textOf_atom, spelling_text, ih, List.flatMap_cons,
        List.append_assoc]
      exact List.cons_ne_nil _ _

/-! ## Phrases -/

/-- What stands in the parentheses of an operation. -/
inductive Item where
  | word (w : List Char)
  | operand (e : Expr)

namespace Item

/-- The text of an item. -/
def text : Item → List Char
  | .word w => w
  | .operand e => Readability.text e

/-- The operand that an item is. -/
def operand? : Item → Option Expr
  | .word _ => none
  | .operand e => some e

def isWord : Item → Bool
  | .word _ => true
  | .operand _ => false

end Item

/-- The words of an operator. -/
def words (sql : String) : List Item :=
  (sql.toList.splitOn ' ').map .word

/-- Operands with the words of an operator between each two. -/
def between (sql : String) : List Expr → List Item
  | [] => []
  | [x] => [.operand x]
  | x :: es => .operand x :: (words sql ++ between sql es)

/-- A phrase with a space before each item. -/
def spaced (items : List Item) : List Char :=
  items.flatMap fun i => [' '] ++ i.text

@[simp] private theorem spaced_nil : spaced [] = [] := rfl

@[simp] private theorem spaced_cons (i : Item) (items : List Item) :
    spaced (i :: items) = ' ' :: i.text ++ spaced items := rfl

@[simp] private theorem spaced_append (items items' : List Item) :
    spaced (items ++ items') = spaced items ++ spaced items' :=
  List.flatMap_append

/-- The words of an operator, with their spaces, are its text. -/
@[simp] theorem spaced_words (sql : String) : spaced (words sql) = ' ' :: sql.toList := by
  have key : ∀ ws : List (List Char), ws ≠ [] →
      spaced (ws.map .word) = ' ' :: [' '].intercalate ws := by
    intro ws hne
    induction ws with
    | nil => exact absurd rfl hne
    | cons w ws ih =>
        cases ws with
        | nil => simp [Item.text, spaced]
        | cons w' ws =>
            rw [List.map_cons, spaced_cons, ih (List.cons_ne_nil _ _)]
            simp [Item.text]
  rw [words, key _ (List.splitOn_ne_nil _ _), List.intercalate_splitOn]

/-- Operands with an operator between, with their spaces, are the joined text. -/
theorem spaced_between (sql : String) {es : List Expr} (h : es ≠ []) :
    spaced (between sql es) = ' ' :: textOf (.joined (" " ++ sql ++ " ") es) := by
  induction es with
  | nil => exact absurd rfl h
  | cons e es ih =>
      cases es with
      | nil => simp [between, spaced, Item.text, Layout.joined]
      | cons e' es =>
          rw [between, spaced_cons, spaced_append, spaced_words, ih (List.cons_ne_nil _ _)]
          simp [Item.text, Layout.joined]
          exact List.cons_ne_nil _ _

/-! ## What a phrase tells -/

/-- The first words of a phrase. -/
def firstWords (items : List Item) : List Item :=
  (items.dropWhile fun i => !i.isWord).takeWhile Item.isWord

/-- A phrase of the words of one operator and of operands in order. -/
structure Phrase (sql : String) (es : List Expr) (items : List Item) : Prop where
  firstWords_eq : firstWords items = words sql
  operands_eq : items.filterMap Item.operand? = es
  mem_words : ∀ w, .word w ∈ items → .word w ∈ words sql

private theorem isWord_of_mem_words {sql : String} {i : Item} (h : i ∈ words sql) : i.isWord := by
  obtain ⟨w, -, rfl⟩ := List.mem_map.mp h
  rfl

@[simp] private theorem operands_words (sql : String) :
    (words sql).filterMap Item.operand? = [] := by
  rw [List.filterMap_eq_nil_iff]
  intro i hi
  obtain ⟨w, -, rfl⟩ := List.mem_map.mp hi
  rfl

/-- Words in front of an operand are the first words. -/
theorem firstWords_words (sql : String) {items : List Item}
    (h : ∀ i ∈ items.head?, i.isWord = false) : firstWords (words sql ++ items) = words sql := by
  -- There is at least one word, so nothing is dropped before the words.
  have hdrop : (words sql ++ items).dropWhile (fun i => !i.isWord) = words sql ++ items := by
    obtain ⟨i, is, hi⟩ := List.exists_cons_of_ne_nil (show words sql ≠ [] by simp [words])
    have : i.isWord := isWord_of_mem_words (hi ▸ List.mem_cons_self)
    rw [hi, List.cons_append, List.dropWhile_cons_of_neg (by simp [this])]
  have htake : items.takeWhile Item.isWord = [] := by
    cases items with
    | nil => rfl
    | cons i is => rw [List.takeWhile_cons_of_neg (by simp [h i rfl])]
  rw [firstWords, hdrop, List.takeWhile_append_of_pos fun i => isWord_of_mem_words, htake,
    List.append_nil]

@[simp] private theorem firstWords_operand (x : Expr) (items : List Item) :
    firstWords (.operand x :: items) = firstWords items := rfl

/-- The words of an operator before an operand are a phrase. -/
theorem Phrase.before (sql : String) (x : Expr) : Phrase sql [x] (words sql ++ [.operand x]) where
  firstWords_eq := firstWords_words sql (by rintro i ⟨⟩; rfl)
  operands_eq := by simp [Item.operand?]
  mem_words := by simp

/-- So are the words after it. -/
theorem Phrase.after (sql : String) (x : Expr) : Phrase sql [x] (.operand x :: words sql) where
  firstWords_eq := by
    have : firstWords (words sql ++ []) = words sql := firstWords_words sql (by simp)
    rwa [List.append_nil] at this
  operands_eq := by simp [Item.operand?]
  mem_words := by simp

private theorem head?_between (sql : String) (x : Expr) (es : List Expr) :
    (between sql (x :: es)).head? = some (.operand x) := by
  cases es <;> rfl

/-- So are the words between two operands or more. -/
theorem Phrase.between (sql : String) (x y : Expr) (es : List Expr) :
    Phrase sql (x :: y :: es) (between sql (x :: y :: es)) where
  firstWords_eq := by
    rw [Readability.between, firstWords_operand]
    · refine firstWords_words sql ?_
      rw [head?_between]
      rintro i ⟨⟩
      rfl
    · exact List.cons_ne_nil _ _
  operands_eq := by
    have key : ∀ es, (Readability.between sql es).filterMap Item.operand? = es := by
      intro es
      fun_induction Readability.between sql es with
      | case1 => rfl
      | case2 x => rfl
      | case3 x es _ ih => simp [Item.operand?, ih]
    exact key _
  mem_words := by
    have key : ∀ es w, .word w ∈ Readability.between sql es → .word w ∈ words sql := by
      intro es w h
      fun_induction Readability.between sql es with
      | case1 => cases h
      | case2 x => simp at h
      | case3 x es _ ih =>
          rcases List.mem_append.mp (List.mem_of_ne_of_mem (by simp) h) with h | h
          · exact h
          · exact ih h
    exact key _

/-- A phrase tells its operator's text and its operands. -/
theorem Phrase.inj {sql sql' : String} {es es' : List Expr} {items : List Item}
    (h : Phrase sql es items) (h' : Phrase sql' es' items) : sql = sql' ∧ es = es' := by
  refine ⟨?_, h.operands_eq.symm.trans h'.operands_eq⟩
  have := congrArg spaced (h.firstWords_eq.symm.trans h'.firstWords_eq)
  rw [spaced_words, spaced_words] at this
  exact String.toList_inj.mp (List.cons.inj this).2

/-- An operation is written as a phrase in parentheses. -/
theorem exists_phrase (tag : String) {o : Operator} {es : List Expr} (ho : o.admits es.length)
    (hn : ∀ sql, o = .nary sql → es.length ≠ 1) :
    ∃ sql items cs, o.sql? = some sql ∧ Phrase sql es items ∧ spaced items = ' ' :: cs ∧
      textOf (o.layout tag es) = '(' :: cs ++ [')'] := by
  -- An operator stands before one operand, after one, or between all of them.
  have hbefore : ∀ sql x, ∃ items cs, Phrase sql [x] items ∧ spaced items = ' ' :: cs ∧
      textOf (Operator.before sql x) = '(' :: cs ++ [')'] := fun sql x =>
    ⟨_, sql.toList ++ ' ' :: text x, .before sql x, by simp [Item.text],
      by simp [Operator.before]⟩
  have hamid : ∀ sql x y xs, ∃ items cs, Phrase sql (x :: y :: xs) items ∧
      spaced items = ' ' :: cs ∧
      textOf (Operator.amid sql (x :: y :: xs)) = '(' :: cs ++ [')'] := fun sql x y xs =>
    ⟨_, _, .between sql x y xs, spaced_between sql (List.cons_ne_nil _ _),
      by simp [Operator.amid, Layout.concat]⟩
  cases o with
  | unary sql =>
      obtain ⟨x, rfl⟩ := List.length_eq_one_iff.mp (beq_iff_eq.mp ho)
      obtain ⟨items, cs, h⟩ := hbefore sql x
      exact ⟨sql, items, cs, rfl, h⟩
  | trailing sql =>
      obtain ⟨x, rfl⟩ := List.length_eq_one_iff.mp (beq_iff_eq.mp ho)
      exact ⟨sql, _, text x ++ ' ' :: sql.toList, rfl, .after sql x, by simp [Item.text],
        by simp [Operator.layout]⟩
  | nary sql =>
      cases es with
      | nil => cases ho
      | cons x es =>
          cases es with
          | nil => exact absurd rfl (hn sql rfl)
          | cons y es =>
              obtain ⟨items, cs, h⟩ := hamid sql x y es
              exact ⟨sql, items, cs, rfl, h⟩
  | twoOrMore sql =>
      cases es with
      | nil => cases ho
      | cons x es =>
          cases es with
          | nil => cases ho
          | cons y es =>
              obtain ⟨items, cs, h⟩ := hamid sql x y es
              exact ⟨sql, items, cs, rfl, h⟩
  | naryOrUnary sql =>
      cases es with
      | nil => cases ho
      | cons x es =>
          cases es with
          | nil =>
              obtain ⟨items, cs, h⟩ := hbefore sql x
              exact ⟨sql, items, cs, rfl, h⟩
          | cons y es =>
              obtain ⟨items, cs, h⟩ := hamid sql x y es
              exact ⟨sql, items, cs, rfl, h⟩
  | custom form => cases ho
  | continued form next => cases ho

/-! ## The table -/

/-- Whether a character may stand in a word of an operator. -/
def isOperatorChar (c : Char) : Bool :=
  !isDelimiter c && !isNameChar c

/-- A character of an operator is no delimiter and stands in no name. -/
theorem isOperatorChar_iff {c : Char} :
    isOperatorChar c ↔ isDelimiter c = false ∧ isNameChar c = false := by
  simp [isOperatorChar]

/-- Every operator of a class has words of such characters, and no two have the same text. -/
theorem declarativeTable_words :
    (Registry.declarativeTable.all fun row => row.2.sql?.any fun sql =>
      (sql.toList.splitOn ' ').all (·.all isOperatorChar)) ∧
    (Registry.declarativeTable.all fun row => Registry.declarativeTable.all fun row' =>
      row.2.sql? != row'.2.sql? || row.1 == row'.1) := by
  decide +kernel

/-- An operator with a text of its own is in the table of declarative ones. -/
theorem mem_declarativeTable {tag : String} {o : Operator} {sql : String}
    (h : Registry.builtin.get? tag = some o) (hs : o.sql? = some sql) :
    (tag, o) ∈ Registry.declarativeTable := by
  rcases List.mem_append.mp (Registry.mem_of_get?_builtin h) with h | h
  · exact h
  · obtain ⟨row, -, hrow⟩ := List.mem_map.mp h
    cases hrow
    cases hs

/-- The words of a built-in operator have no character of a plain name. -/
theorem isOperatorChar_of_mem {tag : String} {o : Operator} {sql : String}
    (h : Registry.builtin.get? tag = some o) (hs : o.sql? = some sql) {w : List Char}
    (hw : .word w ∈ words sql) {c : Char} (hc : c ∈ w) : isOperatorChar c := by
  have := List.all_eq_true.mp declarativeTable_words.1 _ (mem_declarativeTable h hs)
  simp only [hs, Option.any_some, List.all_eq_true] at this
  obtain ⟨w', hw', heq⟩ := List.mem_map.mp hw
  cases heq
  exact this w hw' c hc

/-- The text of a built-in operator tells its tag. -/
theorem tag_eq_of_sql? {tag tag' : String} {o o' : Operator} {sql : String}
    (h : Registry.builtin.get? tag = some o) (hs : o.sql? = some sql)
    (h' : Registry.builtin.get? tag' = some o') (hs' : o'.sql? = some sql) : tag = tag' := by
  have := List.all_eq_true.mp declarativeTable_words.2 _ (mem_declarativeTable h hs)
  have := List.all_eq_true.mp this _ (mem_declarativeTable h' hs')
  simpa [hs, hs'] using this

end Readability
end SqlForms
