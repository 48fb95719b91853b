import Flashcards.Filter.Apply
import Flashcards.Proofs.Text

/-!
# Text inside an attribute

The input for a typed answer carries the expected answer between the quotes of an attribute, and the
answer may be any text. The five characters that would mean something there are written as entities.
Nothing of the answer can end the attribute then, and a reader who takes the entities one after the
other gets the answer back (`unescape_flatMap`), also where it looked like an entity before.

Each character is written for itself. The entities can as well be put into the whole text one by one
(`escapeInTurns_eq`). Then the ampersand has to be the first: it stands in all entities, and the other
four characters stand in none.
-/

namespace Flashcards.Markup

/-- The five entities, behind the characters that they stand for. -/
def entities : List (Char × String) :=
  [('&', "&amp;"), ('<', "&lt;"), ('>', "&gt;"), ('"', "&quot;"), ('\'', "&#x27;")]

/-- A text with an entity in place of its character. -/
def putEntity (cs : List Char) (entry : Char × String) : List Char :=
  cs.flatMap fun c => if c = entry.1 then entry.2.toList else [c]

/-- A text into which the entities were put one by one. -/
def escapeInTurns (cs : List Char) : List Char := entities.foldl putEntity cs

/-- The character whose entity stands at the front, and what follows the entity. -/
def entityAt? (cs : List Char) : Option (Char × List Char) :=
  entities.findSome? fun entry => (Text.afterWord? entry.2.toList cs).map (entry.1, ·)

/-- A text that can stand inside an attribute: nothing in it ends the attribute or begins a tag, and
every ampersand begins an entity. -/
structure Quotable (cs : List Char) : Prop where
  closed : ∀ c ∈ cs, c ∉ ['<', '>', '"', '\'']
  begun : ∀ front behind, cs = front ++ '&' :: behind →
    ∃ entry ∈ entities, entry.2.toList <+: '&' :: behind

variable {c : Char} {entity : String} {cs behind rest : List Char}

/-! ## The entities -/

/-- An entity has one ampersand, at its front, and none of the other four characters. -/
theorem entity_spec (h : (c, entity) ∈ entities) :
    ∃ more, entity.toList = '&' :: more ∧ '&' ∉ more ∧
      ∀ d ∈ entity.toList, d ∉ ['<', '>', '"', '\''] := by
  have hall : ∀ entry ∈ entities, entry.2.toList.head? = some '&' ∧ '&' ∉ entry.2.toList.tail ∧
      ∀ d ∈ entry.2.toList, d ∉ ['<', '>', '"', '\''] := by simp [entities]
  obtain ⟨hhead, htail, hclosed⟩ := hall _ h
  obtain ⟨more, hmore⟩ := List.head?_eq_some_iff.mp hhead
  dsimp only at hmore
  rw [hmore] at htail
  exact ⟨more, hmore, htail, hclosed⟩

/-- **A character is written as its entity, or as itself if it has none.** -/
theorem escapeChar_cases (c : Char) :
    (∃ entity, (c, entity) ∈ entities ∧ escapeChar c = entity.toList) ∨
      (c ∉ entities.map Prod.fst ∧ escapeChar c = [c]) := by
  by_cases hmark : c ∈ entities.map Prod.fst
  · have hall : ∀ entry ∈ entities, escapeChar entry.1 = entry.2.toList := by decide
    obtain ⟨entry, hentry, rfl⟩ := List.mem_map.mp hmark
    exact .inl ⟨entry.2, hentry, hall entry hentry⟩
  · have hnone : entity? c = none := by
      unfold entity?
      split <;> simp_all [entities]
    exact .inr ⟨hmark, by rw [escapeChar, hnone]⟩

theorem not_mem_special (h : c ∉ entities.map Prod.fst) : c ∉ ['<', '>', '"', '\''] ∧ c ≠ '&' := by
  simp only [entities, List.map_cons, List.map_nil, List.mem_cons, List.not_mem_nil, or_false,
    not_or] at h ⊢
  exact ⟨h.2, h.1⟩

/-! ## What can stand in an attribute -/

theorem Quotable.nil : Quotable [] where
  closed := by simp
  begun := by simp

/-- A character in front of a text that can stand in an attribute, written for itself. -/
theorem Quotable.escapeChar_append (h : Quotable rest) (c : Char) :
    Quotable (escapeChar c ++ rest) := by
  rcases escapeChar_cases c with ⟨entity, hentity, hwritten⟩ | ⟨hplain, hwritten⟩
  · obtain ⟨more, hmore, hamp, hclosed⟩ := entity_spec hentity
    rw [hwritten]
    refine ⟨fun d hd => ?_, fun front behind heq => ?_⟩
    · exact (List.mem_append.mp hd).elim (hclosed d) (h.closed d)
    · rw [hmore, List.cons_append] at heq
      cases front with
      | nil =>
          refine ⟨_, hentity, ?_⟩
          rw [← (List.cons.inj heq).2, hmore]
          exact List.prefix_append ('&' :: more) rest
      | cons d front =>
          -- behind the one at its front, the entity has no ampersand
          obtain ⟨later, -, hrest⟩ := Text.exists_before_mark (List.cons.inj heq).2.symm hamp
          exact h.begun later behind hrest.symm
  · obtain ⟨hclosed, hamp⟩ := not_mem_special hplain
    rw [hwritten]
    refine ⟨fun d hd => ?_, fun front behind heq => ?_⟩
    · rcases List.mem_cons.mp hd with rfl | hd
      · exact hclosed
      · exact h.closed d hd
    · cases front with
      | nil => exact absurd (List.cons.inj heq).1 hamp
      | cons d front => exact h.begun front behind (List.cons.inj heq).2

theorem quotable_flatMap (cs : List Char) : Quotable (cs.flatMap escapeChar) := by
  induction cs with
  | nil => exact .nil
  | cons c rest ih => exact ih.escapeChar_append c

/-! ## Taking the entities -/

theorem entityAt?_of_ne (h : c ≠ '&') (rest : List Char) : entityAt? (c :: rest) = none := by
  refine List.findSome?_eq_none_iff.mpr fun entry hentry => ?_
  obtain ⟨more, hmore, -, -⟩ := entity_spec hentry
  rw [hmore, Text.afterWord?, if_neg (Ne.symm h), Option.map_none]

/-- No entity is the beginning of another one. -/
theorem entityAt?_append (h : (c, entity) ∈ entities) (rest : List Char) :
    entityAt? (entity.toList ++ rest) = some (c, rest) := by
  have hall : ∀ entry ∈ entities, entityAt? (entry.2.toList ++ rest) = some (entry.1, rest) := by
    simp [entities, entityAt?, Text.afterWord?]
  exact hall (c, entity) h

theorem entityAt?_length (h : entityAt? cs = some (c, behind)) : behind.length < cs.length := by
  obtain ⟨entry, hentry, hafter⟩ := List.exists_of_findSome?_eq_some h
  obtain ⟨rest, hrest, heq⟩ := Option.map_eq_some_iff.mp hafter
  obtain ⟨more, hmore, -, -⟩ := entity_spec hentry
  have hlength := Text.afterWord?_length hrest
  rw [hmore, List.length_cons, (Prod.mk.inj heq).2] at hlength
  omega

/-- Writes the characters that the entities stand for, from left to right. -/
def unescape (cs : List Char) : List Char :=
  match _h : entityAt? cs with
  | some (c, behind) => c :: unescape behind
  | none =>
    match cs with
    | [] => []
    | c :: rest => c :: unescape rest
termination_by cs.length
decreasing_by
  · exact entityAt?_length _h
  · simp

theorem unescape_of_some (h : entityAt? cs = some (c, behind)) :
    unescape cs = c :: unescape behind := by
  rw [unescape.eq_def]
  split
  · rename_i hfound
    rw [h] at hfound
    cases hfound
    rfl
  · rename_i hnone
    rw [h] at hnone
    cases hnone

theorem unescape_of_none (h : entityAt? (c :: rest) = none) :
    unescape (c :: rest) = c :: unescape rest := by
  rw [unescape.eq_def]
  split
  · rename_i hfound
    rw [h] at hfound
    cases hfound
  · rfl

/-- **What is written for a character is taken for this character.** -/
theorem unescape_escapeChar (c : Char) (rest : List Char) :
    unescape (escapeChar c ++ rest) = c :: unescape rest := by
  rcases escapeChar_cases c with ⟨entity, hentity, hwritten⟩ | ⟨hplain, hwritten⟩
  · rw [hwritten, unescape_of_some (entityAt?_append hentity rest)]
  · rw [hwritten, List.singleton_append,
      unescape_of_none (entityAt?_of_ne (not_mem_special hplain).2 rest)]

theorem unescape_flatMap (cs : List Char) : unescape (cs.flatMap escapeChar) = cs := by
  induction cs with
  | nil => rw [List.flatMap_nil, unescape.eq_def]; rfl
  | cons c rest ih => rw [List.flatMap_cons, unescape_escapeChar, ih]

/-- An ampersand is written as its entity where it begins one already. -/
example : escape "&lt;\">" = "&amp;lt;&quot;&gt;" := by decide

theorem unescape_escape (s : String) : unescape (escape s).toList = s.toList := by
  rw [escape, String.toList_ofList, unescape_flatMap]

/-- Texts that are written alike are the same text. -/
theorem escape_inj {s t : String} : escape s = escape t ↔ s = t := by
  refine ⟨fun h => String.toList_inj.mp ?_, congrArg escape⟩
  rw [← unescape_escape, h, unescape_escape]

/-! ## One entity after the other -/

/-- Entities that are put into a text one by one are put into what each character has become. -/
theorem foldl_putEntity (turns : List (Char × String)) (cs : List Char)
    (write : Char → List Char) :
    turns.foldl putEntity (cs.flatMap write) = cs.flatMap fun c => turns.foldl putEntity (write c) := by
  induction turns generalizing write with
  | nil => rfl
  | cons entry turns ih =>
      have hentry : putEntity (cs.flatMap write) entry
          = cs.flatMap fun c => putEntity (write c) entry := by
        rw [putEntity, List.flatMap_assoc]
        rfl
      rw [List.foldl_cons, hentry, ih]
      rfl

theorem foldl_putEntity_plain {turns : List (Char × String)} (h : c ∉ turns.map Prod.fst) :
    turns.foldl putEntity [c] = [c] := by
  induction turns with
  | nil => rfl
  | cons entry turns ih =>
      obtain ⟨hentry, hturns⟩ := not_or.mp (mt List.mem_cons.mpr h)
      have hput : putEntity [c] entry = [c] := by simp [putEntity, hentry]
      rw [List.foldl_cons, hput, ih hturns]

theorem escapeInTurns_singleton (c : Char) : escapeInTurns [c] = escapeChar c := by
  rcases escapeChar_cases c with ⟨entity, hentity, hwritten⟩ | ⟨hplain, hwritten⟩
  · have hall : ∀ entry ∈ entities, escapeInTurns [entry.1] = entry.2.toList := by decide +kernel
    rw [hwritten, hall (c, entity) hentity]
  · rw [hwritten]
    exact foldl_putEntity_plain hplain

/-- **It makes no difference whether the characters or the entities are taken one by one.** -/
theorem escapeInTurns_eq (cs : List Char) : escapeInTurns cs = cs.flatMap escapeChar := by
  have hturns := foldl_putEntity entities cs fun c => [c]
  rw [List.flatMap_singleton'] at hturns
  rw [escapeInTurns, hturns]
  exact List.flatMap_congr fun c _ => escapeInTurns_singleton c

/-- With the ampersand put in last, the one of another entity would be taken for a character. -/
example : entities.reverse.foldl putEntity ['<'] = "&amp;lt;".toList := by decide

end Flashcards.Markup

namespace Flashcards.Filter

open Markup

/--
**The type filter carries the expected answer whole, and nothing in it gets out.**

For every value the filter gives an input with the value in an attribute. What stands there does not
end the attribute, begins no tag, and has no ampersand that is not the front of an entity. It is the
value with the five entities put in one by one, and taking them from left to right gives the value
back. So no two values are made into the same input, whatever entities they hold themselves.
-/
theorem typing_keeps_answer (ordinal : Int) (side : Side) (value : String) :
    (∃ inside : String,
      Filter.typing.apply ordinal side value
        = .ok ("<input type=\"text\" id=\"typeans\" class=\"type-answer\" data-expected=\""
            ++ inside ++ "\"/>") ∧
      Quotable inside.toList ∧ unescape inside.toList = value.toList ∧
      inside.toList = escapeInTurns value.toList) ∧
    ∀ other, Filter.typing.apply ordinal side value = Filter.typing.apply ordinal side other
      ↔ value = other := by
  have hinside : (escape value).toList = value.toList.flatMap escapeChar := by
    rw [escape, String.toList_ofList]
  refine ⟨⟨escape value, rfl, ?_, unescape_escape value, ?_⟩, fun other => ⟨fun h => ?_, ?_⟩⟩
  · rw [hinside]
    exact quotable_flatMap _
  · rw [hinside, escapeInTurns_eq]
  · have hinput : Widget.typing value = Widget.typing other := Except.ok.inj h
    unfold Widget.typing at hinput
    rw [String.append_left_inj, String.append_right_inj] at hinput
    exact escape_inj.mp hinput
  · rintro rfl
    rfl

end Flashcards.Filter
