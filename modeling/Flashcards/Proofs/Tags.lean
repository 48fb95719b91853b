import Flashcards.Proofs.Text
import Flashcards.Template.Parser

/-!
# What a tag stands for

The content of a tag is trimmed, its first character says whether it opens or closes a section, and
in a field the pieces in front of the last colon are keywords. The two policies differ in one step
of this only, an unknown keyword, so each lemma here holds for both unless it says otherwise.

By the lenient policy every tag stands for something, and `Token.meaning` says for what.
-/

namespace Flashcards.Template

open Text

/-! ## Keywords -/

section Keywords

variable {policy : Policy} {word : List Char}

theorem filtersOf_known {filter : Filter}
    (h : Filter.ofKeyword? (String.ofList (trim word)) = some filter) (rest : List (List Char)) :
    filtersOf policy (word :: rest) = (filtersOf policy rest).map (filter :: ·) := by
  simp [filtersOf, h]

theorem filtersOf_unknown_lenient (h : Filter.ofKeyword? (String.ofList (trim word)) = none)
    (rest : List (List Char)) :
    filtersOf .lenient (word :: rest) = filtersOf .lenient rest := by
  simp [filtersOf, h]

theorem filtersOf_unknown_strict (h : Filter.ofKeyword? (String.ofList (trim word)) = none)
    (rest : List (List Char)) :
    filtersOf .strict (word :: rest) = .error (.unknownFilter (String.ofList (trim word))) := by
  simp [filtersOf, h]

end Keywords

/-- Without unknown keywords there are as many filters as keywords. -/
theorem filtersOf_strict_length {words : List (List Char)} {filters : List Filter}
    (h : filtersOf .strict words = .ok filters) : filters.length = words.length := by
  induction words generalizing filters with
  | nil => cases h; rfl
  | cons word rest ih =>
      cases hword : Filter.ofKeyword? (String.ofList (trim word)) with
      | none => rw [filtersOf_unknown_strict hword] at h; cases h
      | some filter =>
          rw [filtersOf_known hword] at h
          cases hrest : filtersOf .strict rest with
          | error error => rw [hrest] at h; cases h
          | ok more =>
              rw [hrest] at h
              cases h
              rw [List.length_cons, List.length_cons, ih hrest]

/-- The filters among keywords, where unknown ones are passed over. -/
def knownFilters (words : List (List Char)) : List Filter :=
  words.filterMap fun word => Filter.ofKeyword? (String.ofList (trim word))

theorem filtersOf_lenient (words : List (List Char)) :
    filtersOf .lenient words = .ok (knownFilters words) := by
  induction words with
  | nil => rfl
  | cons word rest ih =>
      cases hword : Filter.ofKeyword? (String.ofList (trim word)) with
      | none =>
          rw [filtersOf_unknown_lenient hword, ih]
          simp [knownFilters, hword]
      | some filter =>
          rw [filtersOf_known hword, ih]
          simp [knownFilters, hword, Except.map]

theorem keyword_plain (filter : Filter) {c : Char} (hc : c ∈ filter.keyword.toList) :
    isBlank c = false ∧ (c == ':') = false ∧ c ≠ '}' := by
  -- one computation for each keyword, over all of its characters at once
  have hall : filter.keyword.toList.all (fun c => !isBlank c && !(c == ':') && !(c == '}'))
      = true := by
    cases filter <;> decide
  have hplain := List.all_eq_true.mp hall c hc
  simp only [Bool.and_eq_true, Bool.not_eq_true', beq_eq_false_iff_ne] at hplain
  exact ⟨hplain.1.1, beq_eq_false_iff_ne.mpr hplain.1.2, hplain.2⟩

/-- The keywords of filters name these filters by either policy. -/
theorem filtersOf_keywords (policy : Policy) (filters : List Filter) :
    filtersOf policy (filters.map fun filter => filter.keyword.toList) = .ok filters := by
  induction filters with
  | nil => rfl
  | cons filter rest ih =>
      have htight : Tight filter.keyword.toList :=
        tight_of_forall fun c hc => (keyword_plain filter hc).1
      have hword :
          Filter.ofKeyword? (String.ofList (trim filter.keyword.toList)) = some filter := by
        rw [trim_eq_self_iff.mpr htight, String.ofList_toList, Filter.ofKeyword?_keyword]
      rw [List.map_cons, filtersOf_known hword, ih]
      rfl

/-! ## Fields -/

theorem readField_of_pieces {policy : Policy} {body name : List Char} {words : List (List Char)}
    (h : pieces (· == ':') body = words ++ [name]) :
    readField policy body = (filtersOf policy words).map fun filters => ⟨nameOf name, filters⟩ := by
  have hwords : (pieces (· == ':') body).dropLast = words := by rw [h, List.dropLast_concat]
  have hname : (pieces (· == ':') body).getLast (pieces_ne_nil _ _) = name := by simp [h]
  unfold readField
  dsimp only
  rw [hwords, hname]
  rfl

theorem readField_ok {policy : Policy} {body : List Char} {ref : FieldRef}
    (h : readField policy body = .ok ref) :
    filtersOf policy (pieces (· == ':') body).dropLast = .ok ref.filters
      ∧ ref.name = nameOf ((pieces (· == ':') body).getLast (pieces_ne_nil _ _)) := by
  rw [readField_of_pieces (List.dropLast_append_getLast (pieces_ne_nil _ _)).symm] at h
  cases hf : filtersOf policy (pieces (· == ':') body).dropLast with
  | error error => rw [hf] at h; cases h
  | ok filters =>
      rw [hf] at h
      cases h
      exact ⟨rfl, rfl⟩

/-- Keywords in front of a name are the pieces in front of it. -/
theorem pieces_keywords (filters : List Filter) {name : List Char}
    (h : ∀ c ∈ name, (c == ':') = false) :
    pieces (· == ':') (filters.flatMap (fun filter => filter.keyword.toList ++ [':']) ++ name)
      = filters.map (fun filter => filter.keyword.toList) ++ [name] := by
  induction filters with
  | nil => exact pieces_eq_singleton h
  | cons filter rest ih =>
      rw [List.flatMap_cons, List.append_assoc, List.append_assoc, List.singleton_append,
        pieces_append_separator (fun c hc => (keyword_plain filter hc).2.1) rfl, ih]
      rfl

/-! ## Kinds of tags -/

/-- Whether a character says what kind of tag it stands at the front of. -/
def isSigil (c : Char) : Bool := c = '#' || c = '^' || c = '/'

theorem keyword_head (filter : Filter) : filter.keyword.toList.head?.any isSigil = false := by
  cases filter <;> decide

/-- The blanks inside the braces do not count. -/
theorem readTag_between_blanks {policy : Policy} {content : List Char} (h : Tight content) :
    readTag policy (' ' :: (content ++ [' '])) = readTag policy content := by
  unfold readTag
  rw [trim_between_blanks h, trim_eq_self_iff.mpr h]

/-- A tag without a sigil is one of a field. -/
theorem readTag_of_not_sigil {policy : Policy} {body : List Char}
    (h : (trim body).head?.any isSigil = false) :
    readTag policy body = (readField policy (trim body)).map .field := by
  unfold readTag
  split
  · rename_i htrim; rw [htrim] at h; cases h
  · rename_i htrim; rw [htrim] at h; cases h
  · rename_i htrim; rw [htrim] at h; cases h
  · rfl

/-- **Every kind of tag there is**: the three that stand for a section, each by its sigil, and
those without a sigil, which stand for a field. -/
theorem readTag_cases {policy : Policy} {body : List Char} {mark : Mark}
    (h : readTag policy body = .ok mark) :
    (∃ name, trim body = '#' :: name ∧ mark = .opening (nameOf name) false)
      ∨ (∃ name, trim body = '^' :: name ∧ mark = .opening (nameOf name) true)
      ∨ (∃ name, trim body = '/' :: name ∧ mark = .closing (nameOf name))
      ∨ ((trim body).head?.any isSigil = false
          ∧ ∃ ref, readField policy (trim body) = .ok ref ∧ mark = .field ref) := by
  by_cases hsigil : (trim body).head?.any isSigil = false
  · rw [readTag_of_not_sigil hsigil] at h
    cases hf : readField policy (trim body) with
    | error error => rw [hf] at h; cases h
    | ok ref =>
        rw [hf] at h
        exact .inr (.inr (.inr ⟨hsigil, ref, rfl, (Except.ok.inj h).symm⟩))
  · cases htrim : trim body with
    | nil => rw [htrim] at hsigil; exact absurd rfl hsigil
    | cons c name =>
        rw [htrim] at hsigil
        simp only [List.head?_cons, Option.any_some, Bool.not_eq_false, isSigil, Bool.or_eq_true,
          decide_eq_true_eq] at hsigil
        -- each sigil picks its own branch of `readTag`
        unfold readTag at h
        rw [htrim] at h
        rcases hsigil with (rfl | rfl) | rfl
        · exact .inl ⟨name, rfl, (Except.ok.inj h).symm⟩
        · exact .inr (.inl ⟨name, rfl, (Except.ok.inj h).symm⟩)
        · exact .inr (.inr (.inl ⟨name, rfl, (Except.ok.inj h).symm⟩))

/-! ## Without refusals -/

/-- The field that a tag names where unknown keywords are passed over. -/
def fieldIn (content : List Char) : FieldRef :=
  ⟨nameOf ((pieces (· == ':') content).getLastD []),
    knownFilters (pieces (· == ':') content).dropLast⟩

/-- What a token stands for where unknown keywords are passed over. -/
def Token.meaning : Token → Mark
  | .text literal _ => .text (String.ofList literal)
  | .tag body _ =>
    match trim body with
    | '#' :: name => .opening (nameOf name) false
    | '^' :: name => .opening (nameOf name) true
    | '/' :: name => .closing (nameOf name)
    | content => .field (fieldIn content)

theorem mark_lenient (token : Token) : token.mark .lenient = .ok token.meaning := by
  cases token with
  | text literal position => rfl
  | tag body position =>
      have hfield : readField .lenient (trim body) = .ok (fieldIn (trim body)) := by
        rw [readField_of_pieces (List.dropLast_append_getLast (pieces_ne_nil _ _)).symm,
          filtersOf_lenient, fieldIn, List.getLastD_eq_getLast?,
          List.getLast?_eq_some_getLast (pieces_ne_nil _ _)]
        rfl
      rw [Token.mark, readTag, Token.meaning]
      generalize trim body = content at hfield ⊢
      split
      · rfl
      · rfl
      · rfl
      · simp [hfield, Except.map]

end Flashcards.Template
