import Flashcards.Proofs.Grammar

/-!
# What the strict policy refuses

The two policies take the same tokens one by one, and differ only where a keyword names no filter.
So a strict run goes along with the lenient one until it meets such a keyword (`Refused`), and from
there on nothing else that is wrong with the template matters.

The lenient run may have ended before that, at a closing mark that does not fit. Tags and sections
that are left open do not come into it: they are found out at the end, when every keyword was met.
-/

namespace Flashcards.Template

open Text

/-- Some filter goes by this keyword. -/
def Known (keyword : String) : Prop := ∃ filter : Filter, filter.keyword = keyword

theorem ofKeyword?_eq_none_iff {keyword : String} :
    Filter.ofKeyword? keyword = none ↔ ¬ Known keyword := by
  constructor
  · rintro hnone ⟨filter, rfl⟩
    rw [Filter.ofKeyword?_keyword] at hnone
    cases hnone
  · intro hunknown
    cases hfound : Filter.ofKeyword? keyword with
    | none => rfl
    | some filter => exact absurd ⟨filter, Filter.keyword_of_ofKeyword? hfound⟩ hunknown

instance : DecidablePred Known := fun keyword =>
  decidable_of_iff (¬ Filter.ofKeyword? keyword = none) (by rw [ofKeyword?_eq_none_iff, not_not])

/-- The keywords of a tag that shows a field: what stands in front of the last colon. -/
def Token.keywords : Token → List String
  | .text _ _ => []
  | .tag body _ =>
    if (trim body).head?.any isSigil then []
    else (pieces (· == ':') (trim body)).dropLast.map nameOf

/-- The first keyword that names no filter. -/
def firstUnknown (keywords : List String) : Option String :=
  keywords.find? fun keyword => ¬ Known keyword

/-- Going through the tokens of a template, this is the first keyword that names no filter, and no
closing mark in front of it is out of place. -/
def Refused (template keyword : String) : Prop :=
  ∃ before token after, (scan template).tokens = before ++ token :: after ∧
    (∀ expected found, ¬ Misfit (before.map Token.meaning) expected found) ∧
    (∀ earlier ∈ before, firstUnknown earlier.keywords = none) ∧
    firstUnknown token.keywords = some keyword

/-! ## One token -/

section

variable {tokens : List Token} {keyword template : String}

theorem firstUnknown_cons_known (h : Known keyword) (rest : List String) :
    firstUnknown (keyword :: rest) = firstUnknown rest :=
  List.find?_cons_of_neg (by simpa using h)

theorem firstUnknown_cons_unknown (h : ¬ Known keyword) (rest : List String) :
    firstUnknown (keyword :: rest) = some keyword :=
  List.find?_cons_of_pos (by simpa using h)

/-- The strict policy stops at the first unknown keyword, and agrees with the lenient one if there
is none. -/
theorem filtersOf_strict (words : List (List Char)) :
    filtersOf .strict words = match firstUnknown (words.map nameOf) with
      | some keyword => .error (.unknownFilter keyword)
      | none => filtersOf .lenient words := by
  induction words with
  | nil => rfl
  | cons word rest ih =>
      rw [List.map_cons]
      cases hword : Filter.ofKeyword? (nameOf word) with
      | none =>
          rw [firstUnknown_cons_unknown (ofKeyword?_eq_none_iff.mp hword)]
          exact filtersOf_unknown_strict hword rest
      | some filter =>
          rw [firstUnknown_cons_known ⟨filter, Filter.keyword_of_ofKeyword? hword⟩,
            filtersOf_known hword, filtersOf_known hword, ih]
          cases firstUnknown (rest.map nameOf) with
          | none => rfl
          | some keyword => rfl

/-- Behind a sigil there are no keywords. -/
theorem readTag_of_sigil {body : List Char} (h : (trim body).head?.any isSigil = true) :
    readTag .strict body = readTag .lenient body := by
  unfold readTag
  split
  · rfl
  · rfl
  · rfl
  · rename_i hopening hnegated hclosing
    cases htrim : trim body with
    | nil => rw [htrim] at h; cases h
    | cons c name =>
        rw [htrim] at h
        simp only [List.head?_cons, Option.any_some, isSigil, Bool.or_eq_true,
          decide_eq_true_eq] at h
        rcases h with (rfl | rfl) | rfl
        · exact absurd htrim (hopening name)
        · exact absurd htrim (hnegated name)
        · exact absurd htrim (hclosing name)

theorem mark_strict (token : Token) :
    token.mark .strict = match firstUnknown token.keywords with
      | some keyword => .error (.unknownFilter keyword)
      | none => .ok token.meaning := by
  rw [← mark_lenient]
  cases token with
  | text literal position => rfl
  | tag body position =>
      rw [Token.keywords, Token.mark, Token.mark]
      by_cases hsigil : (trim body).head?.any isSigil = false
      · have hparts := (List.dropLast_append_getLast (pieces_ne_nil (· == ':') (trim body))).symm
        rw [hsigil, if_neg Bool.false_ne_true, readTag_of_not_sigil hsigil,
          readTag_of_not_sigil hsigil, readField_of_pieces hparts, readField_of_pieces hparts,
          filtersOf_strict]
        cases firstUnknown ((pieces (· == ':') (trim body)).dropLast.map nameOf) with
        | none => rfl
        | some keyword => rfl
      · rw [Bool.not_eq_false] at hsigil
        rw [hsigil, if_pos rfl]
        exact readTag_of_sigil hsigil

/-! ## All tokens -/

theorem addTokens_append (policy : Policy) (draft : Draft) (front rest : List Token) :
    draft.addTokens policy (front ++ rest)
      = draft.addTokens policy front >>= fun next => next.addTokens policy rest := by
  induction front generalizing draft with
  | nil => rfl
  | cons token front ih =>
      rw [List.cons_append, Draft.addTokens, Draft.addTokens, bind_assoc]
      refine congrArg (token.mark policy >>= ·) (funext fun mark => ?_)
      rw [bind_assoc]
      exact congrArg (draft.add mark >>= ·) (funext ih)

/-- As long as every keyword is known, the two policies go along with each other. -/
theorem addTokens_strict (h : ∀ token ∈ tokens, firstUnknown token.keywords = none)
    (draft : Draft) :
    draft.addTokens .strict tokens = draft.addMarks (tokens.map Token.meaning) := by
  refine addTokens_of_reads (List.forall₂_map_right_iff.mpr (List.forall₂_same.mpr ?_)) draft
  intro token hmem
  rw [mark_strict, h token hmem]

/-- An unknown keyword stops the strict policy, whatever comes behind it. -/
theorem parse_strict_of_refused (h : Refused template keyword) :
    parse .strict template = .error (.unknownFilter keyword) := by
  obtain ⟨before, token, after, htokens, hfit, hknown, hunknown⟩ := h
  obtain ⟨draft, hdraft⟩ := Draft.addMarks_of_no_misfit hfit
  rw [parse_eq, htokens, addTokens_append, addTokens_strict hknown, hdraft]
  show (draft.addTokens .strict (token :: after) >>= _) = _
  rw [Draft.addTokens, mark_strict, hunknown]
  rfl

/-- The first token with an unknown keyword, if there is any. -/
theorem exists_first_unknown (h : ¬ ∀ token ∈ tokens, firstUnknown token.keywords = none) :
    ∃ before token after keyword, tokens = before ++ token :: after ∧
      (∀ earlier ∈ before, firstUnknown earlier.keywords = none) ∧
      firstUnknown token.keywords = some keyword := by
  cases hfirst : tokens.find? fun token => (firstUnknown token.keywords).isSome with
  | none => exact absurd (by simpa [List.find?_eq_none] using hfirst) h
  | some token =>
      obtain ⟨hsome, before, after, htokens, hbefore⟩ := List.find?_eq_some_iff_append.mp hfirst
      obtain ⟨keyword, hkeyword⟩ := Option.isSome_iff_exists.mp hsome
      exact ⟨before, token, after, keyword, htokens, by simpa using hbefore, hkeyword⟩

/-- Where the strict policy refuses nothing, it is not told from the lenient one. -/
theorem parse_strict_of_not_refused (h : ∀ keyword, ¬ Refused template keyword) :
    parse .strict template = parse .lenient template := by
  rw [parse_lenient_eq, parse_eq]
  by_cases hall : ∀ token ∈ (scan template).tokens, firstUnknown token.keywords = none
  · rw [addTokens_strict hall]
    rfl
  · -- the first unknown keyword is not reached, so a closing mark in front of it does not fit
    obtain ⟨before, token, after, keyword, htokens, hknown, hunknown⟩ := exists_first_unknown hall
    have hmisfit : ∃ expected found, Misfit (before.map Token.meaning) expected found := by
      by_contra hfit
      push Not at hfit
      exact h keyword ⟨before, token, after, htokens, hfit, hknown, hunknown⟩
    obtain ⟨expected, found, hmisfit⟩ := hmisfit
    have hrefused := Draft.addMarks_of_misfit hmisfit
    rw [marksOf, htokens, addTokens_append, addTokens_strict hknown, List.map_append,
      Draft.addMarks_append, hrefused]
    rfl

/-- The lenient policy has no complaint about a keyword. -/
theorem parse_lenient_ne_unknownFilter (template keyword : String) :
    parse .lenient template ≠ .error (.unknownFilter keyword) := by
  rw [parse_lenient_eq]
  intro h
  cases hadd : Draft.empty.addMarks (marksOf template) with
  | error error =>
      obtain ⟨expected, found, -, rfl⟩ := Draft.misfit_of_addMarks hadd
      rw [hadd] at h
      cases h
  | ok draft =>
      rw [hadd] at h
      replace h : draft.conclude (scan template).stopped = .error (.unknownFilter keyword) := h
      unfold Draft.conclude Draft.finish at h
      split at h
      · cases h
      · split at h <;> cases h

/--
**The strict policy only ever turns an outcome into an unknown filter.**

It reports the first keyword that names no filter, unless a closing mark in front of it is out of
place. Everywhere else the two policies have the same outcome, and a template that is accepted
strictly is read as the same tree leniently.
-/
theorem parse_strict_iff (template : String) :
    (∀ keyword, parse .strict template = .error (.unknownFilter keyword)
        ↔ Refused template keyword) ∧
      (parse .strict template = parse .lenient template
        ↔ ∀ keyword, ¬ Refused template keyword) ∧
      ∀ nodes, parse .strict template = .ok nodes
        ↔ parse .lenient template = .ok nodes ∧ ∀ keyword, ¬ Refused template keyword := by
  have hsame : parse .strict template = parse .lenient template
      ↔ ∀ keyword, ¬ Refused template keyword := by
    refine ⟨fun heq keyword hrefused => ?_, parse_strict_of_not_refused⟩
    rw [parse_strict_of_refused hrefused] at heq
    exact parse_lenient_ne_unknownFilter template keyword heq.symm
  refine ⟨fun keyword => ⟨fun hstrict => ?_, parse_strict_of_refused⟩, hsame, fun nodes => ?_⟩
  · by_contra hnot
    -- with nothing refused the lenient policy would have that complaint, and it never has
    have hnone : ∀ other, ¬ Refused template other := by
      intro other hother
      rw [parse_strict_of_refused hother] at hstrict
      cases hstrict
      exact hnot hother
    rw [hsame.mpr hnone] at hstrict
    exact parse_lenient_ne_unknownFilter template keyword hstrict
  · constructor
    · intro hstrict
      have hnone : ∀ keyword, ¬ Refused template keyword := by
        intro keyword hrefused
        rw [parse_strict_of_refused hrefused] at hstrict
        cases hstrict
      exact ⟨hsame.mpr hnone ▸ hstrict, hnone⟩
    · rintro ⟨hlenient, hnone⟩
      exact (hsame.mpr hnone).trans hlenient

/-- An empty keyword is an unknown one, and it is met before the section is found to be open. -/
example : parse .strict (shownTag "#a" ++ shownTag "text: :b")
    = .error (.unknownFilter "") := by cbv

end

end Flashcards.Template
