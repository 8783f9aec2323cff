import Mathlib.Data.Finset.Card
import Mathlib.Data.Nat.Find
import SqlForms.Proofs.Lexical.Scanner

/-! # The fence of a body

    A body is written between two copies of a fence that the reader must not
    meet before the second copy.  Fences are tried in turn; the search ends
    because two different fences cannot start at the same place.

    * `overlap`: a fence that is met too early already starts inside the body
      followed by a dollar sign, a text that does not depend on the fence;
    * `exists_closes`: so one of more fences than places is not met too
      early;
    * `delimiter_eq_first`: the search stops at the first of these;
    * `token?_fence`: with that fence the body is read back whole, and
      `token?_body_append` leaves alone what comes after it. -/

namespace SqlForms

namespace Function

/-- Where a text first occurs in another. -/
theorem indexOf?_eq_some {pattern cs : List Char} {n : Nat} :
    indexOf? pattern cs = some n ↔
      n ≤ cs.length ∧ pattern <+: cs.drop n ∧ ∀ j < n, ¬ pattern <+: cs.drop j := by
  induction cs generalizing n with
  | nil =>
      rw [indexOf?]
      constructor
      · intro h
        split at h
        next he =>
          cases h
          rw [List.isEmpty_iff.mp he]
          exact ⟨Nat.le_refl _, List.nil_prefix, fun j hj => absurd hj (Nat.not_lt_zero j)⟩
        next => cases h
      · rintro ⟨hn, hp, -⟩
        rw [List.drop_nil, List.prefix_nil] at hp
        rw [hp, Nat.le_zero.mp hn]
        rfl
  | cons c cs ih =>
      rw [indexOf?]
      -- The pattern stands right here, or every place of it is one further than in the rest.
      by_cases hp : pattern <+: c :: cs
      · rw [if_pos (List.isPrefixOf_iff_prefix.mpr hp)]
        constructor
        · intro h
          cases h
          exact ⟨Nat.zero_le _, hp, fun j hj => absurd hj (Nat.not_lt_zero j)⟩
        · rintro ⟨-, -, hfirst⟩
          cases n with
          | zero => rfl
          | succ n => exact absurd hp (hfirst 0 (Nat.succ_pos n))
      · rw [if_neg (fun h => hp (List.isPrefixOf_iff_prefix.mp h)), Option.map_eq_some_iff]
        constructor
        · rintro ⟨m, hm, rfl⟩
          obtain ⟨hle, hat, hfirst⟩ := ih.mp hm
          refine ⟨Nat.succ_le_succ hle, hat, fun j hj => ?_⟩
          cases j with
          | zero => exact hp
          | succ j => exact hfirst j (Nat.lt_of_succ_lt_succ hj)
        · rintro ⟨hle, hat, hfirst⟩
          cases n with
          | zero => exact absurd hat hp
          | succ n =>
              refine ⟨n, ih.mpr ⟨Nat.le_of_succ_le_succ hle, hat, fun j hj => ?_⟩, rfl⟩
              exact hfirst (j + 1) (Nat.succ_lt_succ hj)

/-- A delimiter closes a body when it does not start inside the body. -/
theorem closes_iff {delimiter body : List Char} :
    closes delimiter body = true ↔
      ∀ j < body.length, ¬ delimiter <+: (body ++ delimiter).drop j := by
  rw [closes, beq_iff_eq, indexOf?_eq_some]
  constructor
  · exact fun h => h.2.2
  · intro h
    refine ⟨by simp, ?_, h⟩
    rw [List.drop_left]

/-- A text that occurs in another first occurs there whatever comes after. -/
theorem indexOf?_append {pattern cs : List Char} {n : Nat} (h : indexOf? pattern cs = some n)
    (rest : List Char) : indexOf? pattern (cs ++ rest) = some n := by
  obtain ⟨hle, hat, hfirst⟩ := indexOf?_eq_some.mp h
  have hlen : n + pattern.length ≤ cs.length := by
    have := hat.length_le
    rw [List.length_drop] at this
    omega
  refine indexOf?_eq_some.mpr ⟨?_, ?_, fun j hj hp => hfirst j hj ?_⟩
  · rw [List.length_append]
    omega
  · rw [List.drop_append_of_le_length hle]
    exact hat.trans (List.prefix_append _ _)
  · -- What is left of the text before is long enough to decide.
    rw [List.drop_append_of_le_length (by omega)] at hp
    refine List.prefix_of_prefix_length_le hp (List.prefix_append _ _) ?_
    rw [List.length_drop]
    omega

/-! ## Fences -/

open Lexical (fence)

/-- The tags that are tried, in turn. -/
def candidate : Nat → List Char
  | 0 => []
  | n + 1 => ['b', 'o', 'd', 'y'] ++ (if n = 0 then [] else Nat.toDigits 10 n)

/-- No tag is tried twice. -/
theorem candidate_injective {k k' : Nat} (h : candidate k = candidate k') : k = k' := by
  cases k with
  | zero =>
      cases k' with
      | zero => rfl
      | succ n => cases h
  | succ n =>
      cases k' with
      | zero => cases h
      | succ n' =>
          have h : (if n = 0 then [] else Nat.toDigits 10 n) =
              if n' = 0 then [] else Nat.toDigits 10 n' := List.append_cancel_left h
          by_cases hn : n = 0
          · by_cases hn' : n' = 0
            · rw [hn, hn']
            · rw [if_pos hn, if_neg hn'] at h
              exact absurd h.symm Nat.toDigits_ne_nil
          · by_cases hn' : n' = 0
            · rw [if_neg hn, if_pos hn'] at h
              exact absurd h Nat.toDigits_ne_nil
            · rw [if_neg hn, if_neg hn'] at h
              have hread := congrArg (Nat.ofDigitChars 10 · 0) h
              simp only [Nat.ofDigitChars_ten_toDigits] at hread
              rw [hread]

/-- A tag that is tried has only characters of a tag. -/
theorem isTagChar_of_mem_candidate {k : Nat} {c : Char} (h : c ∈ candidate k) :
    Lexical.isTagChar c := by
  cases k with
  | zero => cases h
  | succ n =>
      rcases List.mem_append.mp h with h | h
      · have letters : ['b', 'o', 'd', 'y'].all Lexical.isTagChar := by decide
        exact List.all_eq_true.mp letters c h
      · split at h
        · cases h
        · exact Lexical.isTagChar_of_isDigit (Nat.isDigit_of_mem_toDigits (by decide) (by decide) h)

/-- A tag that is tried has no dollar sign. -/
theorem dollar_not_mem_candidate (k : Nat) : '$' ∉ candidate k := by
  intro h
  have hd := isTagChar_of_mem_candidate h
  rw [Lexical.isTagChar_dollar] at hd
  cases hd

/-- A tag that is tried starts with a letter. -/
theorem head?_candidate (k : Nat) : (candidate k).head?.all Text.isAlphabetic := by
  cases k with
  | zero => rfl
  | succ n =>
      show Text.isAlphabetic 'b' = true
      decide

/-- A tag that is followed by a dollar sign like another one is that one. -/
theorem eq_of_fence_isPrefix {t u : List Char} (hu : '$' ∉ u) (h : t ++ ['$'] <+: u ++ ['$']) :
    t = u := by
  induction t generalizing u with
  | nil =>
      cases u with
      | nil => rfl
      | cons c u =>
          have hc : '$' = c := (List.cons_prefix_cons.mp h).1
          exact absurd (hc ▸ List.mem_cons_self) hu
  | cons c t ih =>
      cases u with
      | nil =>
          have := h.length_le
          simp at this
      | cons c' u =>
          obtain ⟨rfl, htail⟩ := List.cons_prefix_cons.mp h
          rw [ih (fun hm => hu (List.mem_cons_of_mem _ hm)) htail]

/-- Two fences cannot start at the same place. -/
theorem eq_of_fence_isPrefix_of_isPrefix {t u l : List Char} (ht : '$' ∉ t) (hu : '$' ∉ u)
    (h : fence t <+: l) (h' : fence u <+: l) : t = u := by
  rcases List.prefix_or_prefix_of_prefix h h' with hp | hp
  · exact eq_of_fence_isPrefix hu (List.cons_prefix_cons.mp hp).2
  · exact (eq_of_fence_isPrefix ht (List.cons_prefix_cons.mp hp).2).symm

/-- A fence that is met before its copy starts in what is before the copy and a dollar sign. -/
theorem overlap {t b : List Char} (ht : '$' ∉ t) (hb : b ≠ []) (h : fence t <+: b ++ fence t) :
    fence t <+: b ++ ['$'] := by
  have hcopy : b ++ ['$'] <+: b ++ fence t :=
    (List.prefix_append_right_inj b).mpr (List.prefix_append ['$'] (t ++ ['$']))
  rcases List.prefix_or_prefix_of_prefix h hcopy with hp | hp
  · exact hp
  · -- Otherwise the dollar sign after `b` lies in the fence, and can only be its last one.
    cases b with
    | nil => exact absurd rfl hb
    | cons c b =>
        obtain ⟨rfl, htail⟩ := List.cons_prefix_cons.mp hp
        rw [eq_of_fence_isPrefix ht htail]
        exact List.prefix_rfl

/-! ## The search -/

/-- A body has fewer places than there are candidates, so one of them closes it. -/
theorem exists_closes (body : List Char) :
    ∃ k ≤ body.length, closes (fence (candidate k)) body = true := by
  by_contra hnone
  have hplace : ∀ k, k ≤ body.length →
      ∃ j < body.length, fence (candidate k) <+: (body ++ ['$']).drop j := by
    intro k hk
    have hopen : ¬ closes (fence (candidate k)) body = true := fun h => hnone ⟨k, hk, h⟩
    rw [closes_iff] at hopen
    push Not at hopen
    obtain ⟨j, hj, hp⟩ := hopen
    refine ⟨j, hj, ?_⟩
    rw [List.drop_append_of_le_length hj.le] at hp ⊢
    refine overlap (dollar_not_mem_candidate k) ?_ hp
    rw [ne_eq, List.drop_eq_nil_iff]
    omega
  -- There are more candidates than places, so two of them start at the same place.
  choose! place hlt hat using hplace
  have hcard : (Finset.range body.length).card < (Finset.range (body.length + 1)).card := by
    rw [Finset.card_range, Finset.card_range]
    exact Nat.lt_succ_self _
  obtain ⟨k, hk, k', hk', hne, heq⟩ := Finset.exists_ne_map_eq_of_card_lt_of_maps_to hcard
    (f := place) fun k hk => Finset.mem_range.mpr (hlt k (Finset.mem_range_succ_iff.mp hk))
  have h := hat k (Finset.mem_range_succ_iff.mp hk)
  have h' := hat k' (Finset.mem_range_succ_iff.mp hk')
  rw [← heq] at h'
  exact hne (candidate_injective (eq_of_fence_isPrefix_of_isPrefix
    (dollar_not_mem_candidate k) (dollar_not_mem_candidate k') h h'))

/-- The search stops at the first delimiter that closes the body, if that is among those it
    tries. -/
theorem searchDelimiter_eq {body : List Char} {n fuel k : Nat} (hn : n ≤ k) (hk : k ≤ n + fuel)
    (h : closes (numberedDelimiter k) body = true)
    (hfirst : ∀ j, n ≤ j → j < k → closes (numberedDelimiter j) body = false) :
    searchDelimiter body n fuel = numberedDelimiter k := by
  induction fuel generalizing n with
  | zero =>
      have : n = k := by omega
      rw [searchDelimiter, this]
  | succ fuel ih =>
      rw [searchDelimiter]
      by_cases hnk : n = k
      · rw [if_pos (hnk ▸ h), hnk]
      · rw [if_neg (by rw [hfirst n (Nat.le_refl n) (by omega)]; decide)]
        exact ih (by omega) (by omega) fun j hj => hfirst j (by omega)

/-- The delimiter of a body is the first candidate that closes it, and no more candidates are
    tried before it than the body has characters. -/
theorem delimiter_eq_first (body : List Char) :
    ∃ k ≤ body.length, delimiter body = fence (candidate k) ∧
      closes (fence (candidate k)) body = true ∧
      ∀ j < k, closes (fence (candidate j)) body = false := by
  obtain ⟨m, hm, hclose⟩ := exists_closes body
  have hex : ∃ k, closes (fence (candidate k)) body = true := ⟨m, hclose⟩
  have hk := Nat.find_spec hex
  have hbound : Nat.find hex ≤ body.length := (Nat.find_min' hex hclose).trans hm
  have hfirst : ∀ j < Nat.find hex, closes (fence (candidate j)) body = false :=
    fun j hj => Bool.eq_false_iff.mpr (Nat.find_min hex hj)
  refine ⟨Nat.find hex, hbound, ?_, hk, hfirst⟩
  generalize Nat.find hex = k at hk hbound hfirst
  rw [delimiter]
  cases k with
  | zero => exact if_pos hk
  | succ k =>
      have hplain : closes ['$', '$'] body = false := hfirst 0 (Nat.succ_pos k)
      rw [if_neg (Bool.eq_false_iff.mp hplain)]
      exact searchDelimiter_eq (Nat.zero_le k) (by omega) hk
        fun j _ hj => hfirst (j + 1) (Nat.succ_lt_succ hj)

end Function

/-! ## Reading a body back -/

namespace Lexical

/-- A fence is read up to its second dollar sign. -/
theorem tag?_fence {tag : List Char} (ht : ∀ c ∈ tag, isTagChar c)
    (hh : tag.head?.all Text.isAlphabetic) (rest : List Char) :
    tag? (tag ++ '$' :: rest) = some (tag, rest) := by
  have htake : (tag ++ '$' :: rest).takeWhile isTagChar = tag := by
    rw [List.takeWhile_append_of_pos ht, List.takeWhile_cons_of_neg (by simp [isTagChar_dollar]),
      List.append_nil]
  have hdrop : (tag ++ '$' :: rest).dropWhile isTagChar = '$' :: rest := by
    rw [List.dropWhile_append_of_pos ht, List.dropWhile_cons_of_neg (by simp [isTagChar_dollar])]
  rw [tag?, htake, hdrop]
  simp [hh]

/-- A tag at the front is what stands before the next dollar sign, and has the form of a tag. -/
theorem tag?_eq_some {cs tag r : List Char} (h : tag? cs = some (tag, r)) :
    cs = tag ++ '$' :: r ∧ (∀ c ∈ tag, isTagChar c) ∧ tag.head?.all Text.isAlphabetic := by
  rw [tag?] at h
  split at h
  · cases h
  next c rest hc =>
    split at h
    next hcond =>
      cases h
      refine ⟨?_, List.all_eq_true.mp List.all_takeWhile, hcond.2⟩
      rw [← hcond.1, ← hc, List.takeWhile_append_dropWhile]
    next => cases h

/-- A body that was read is read whatever comes after it. -/
theorem token?_body_append {d d' : Dialect} {cs tag content r : List Char}
    (h : token? d '$' cs = some (.body tag content, r)) (rest : List Char) :
    token? d' '$' (cs ++ rest) = some (.body tag content, r ++ rest) := by
  rw [token?, if_neg (by decide), if_neg (by decide), if_pos rfl] at h ⊢
  cases ht : tag? cs with
  | none => rw [ht] at h; cases h
  | some p =>
      obtain ⟨tag', r'⟩ := p
      rw [ht] at h
      obtain ⟨p, hb, heq⟩ := Option.map_eq_some_iff.mp h
      obtain ⟨n, hn, rfl⟩ := Option.map_eq_some_iff.mp hb
      cases heq
      obtain ⟨rfl, hchars, hhead⟩ := tag?_eq_some ht
      have hend : n + (fence tag).length ≤ r'.length := by
        obtain ⟨hle, hat, -⟩ := Function.indexOf?_eq_some.mp hn
        have := hat.length_le
        rw [List.length_drop] at this
        omega
      rw [List.append_assoc, List.cons_append, tag?_fence hchars hhead]
      show (body? tag (r' ++ rest)).map _ = _
      rw [body?, Function.indexOf?_append hn, Option.map_some, Option.map_some,
        List.take_append_of_le_length (by omega), List.drop_append_of_le_length hend]

/-- The body that a text is as a whole, between two copies of its fence. -/
def wholeBody? : List Char → Option Token
  | [] => none
  | c :: cs =>
      if c = '$' then
        match token? .standard c cs with
        | some (.body tag content, []) => some (.body tag content)
        | _ => none
      else none

/-- A text that is a body as a whole is one token. -/
theorem wholeBody?_eq_some {cs : List Char} {t : Token} (h : wholeBody? cs = some t) :
    ∃ r tag content, cs = '$' :: r ∧ t = .body tag content ∧
      token? .standard '$' r = some (.body tag content, []) := by
  cases cs with
  | nil => cases h
  | cons c r =>
      rw [wholeBody?] at h
      by_cases hc : c = '$'
      · rw [if_pos hc, hc] at h
        split at h
        next tag content ht =>
          exact ⟨r, tag, content, by rw [hc], (Option.some.inj h).symm, ht⟩
        next => cases h
      · rw [if_neg hc] at h
        cases h

/-- A body that a fence closes is read back between two copies of it. -/
theorem token?_fence {d : Dialect} {tag body : List Char} (ht : ∀ c ∈ tag, isTagChar c)
    (hh : tag.head?.all Text.isAlphabetic) (hc : Function.closes (fence tag) body = true) :
    token? d '$' (tag ++ '$' :: (body ++ fence tag)) = some (.body tag body, []) := by
  have hbody : body? tag (body ++ fence tag) = some (body, []) := by
    rw [body?, beq_iff_eq.mp hc, Option.map_some, List.take_left, ← List.drop_drop,
      List.drop_left, List.drop_length]
  rw [token?, if_neg (by decide), if_neg (by decide), if_pos rfl, tag?_fence ht hh]
  simp [hbody]

private theorem fence_append (tag body : List Char) :
    fence tag ++ body ++ fence tag = '$' :: (tag ++ '$' :: (body ++ fence tag)) := by
  simp [fence]

/-- A body between two copies of its delimiter is read back whole. -/
theorem wholeBody?_quote (body : List Char) :
    ∃ k, wholeBody? (Function.delimiter body ++ body ++ Function.delimiter body) =
      some (.body (Function.candidate k) body) := by
  obtain ⟨k, -, hk, hc, -⟩ := Function.delimiter_eq_first body
  refine ⟨k, ?_⟩
  rw [hk, fence_append, wholeBody?, if_pos rfl,
    token?_fence (fun c => Function.isTagChar_of_mem_candidate) (Function.head?_candidate k) hc]

/-- A quoted body is read back, whatever comes after it. -/
theorem front?_quote {d : Dialect} {body : String} {k : Nat}
    (hk : Function.delimiter body.toList = fence (Function.candidate k))
    (hc : Function.closes (fence (Function.candidate k)) body.toList = true) (rest : List Char) :
    front? d ((Function.quote body).toList ++ rest) =
      some (.body (Function.candidate k) body.toList, rest) := by
  rw [Function.quote, String.toList_ofList, hk, fence_append]
  exact token?_body_append (token?_fence (d := d)
    (fun c => Function.isTagChar_of_mem_candidate) (Function.head?_candidate k) hc) rest

/-- **The search for a delimiter ends, at the first one that fits.**  Of `$$`, `$body$`, `$body1$`,
    … the first that closes a body is taken, after no more failures than the body has characters.
    It starts nowhere in the body, not even where the body meets it, so that the body between two
    copies of it is read back up to the second copy, whatever comes after. -/
theorem delimiter_first_closing (body : String) :
    ∃ k ≤ body.length,
      Function.delimiter body.toList = fence (Function.candidate k) ∧
      (∀ j ≤ k, Function.closes (fence (Function.candidate j)) body.toList = true ↔ j = k) ∧
      (∀ j ≤ body.length, fence (Function.candidate k) <+:
        (body.toList ++ fence (Function.candidate k)).drop j ↔ j = body.length) ∧
      ∀ (d : Dialect) (rest : String), front? d (Function.quote body ++ rest).toList =
        some (.body (Function.candidate k) body.toList, rest.toList) := by
  obtain ⟨k, hle, hk, hc, hfirst⟩ := Function.delimiter_eq_first body.toList
  rw [String.length_toList] at hle
  refine ⟨k, hle, hk, fun j hj => ⟨fun h => ?_, fun h => h ▸ hc⟩,
    fun j hj => ⟨fun h => ?_, ?_⟩, fun d rest => ?_⟩
  · by_contra hne
    rw [hfirst j (by omega)] at h
    cases h
  · by_contra hne
    exact Function.closes_iff.mp hc j (by rw [String.length_toList]; omega) h
  · rintro rfl
    rw [← String.length_toList, List.drop_left]
  · rw [String.toList_append]
    exact front?_quote hk hc rest.toList

/-- A body that ends in a dollar sign and holds the second candidate takes the third. -/
example : Function.delimiter "$body$ price$".toList = "$body1$".toList := by
  decide

end Lexical
end SqlForms
