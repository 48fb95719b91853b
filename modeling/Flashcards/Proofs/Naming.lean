import Flashcards.Proofs.Overlong

/-!
# What a template names

A tree lists the names of the fields it shows and of the sections it has (`Nodes.names`), those
inside sections that are skipped too. No other field can be told from its rendering: two sets of
fields with the same values under these names are in agreement for the tree, in the sense of
`Nodes.Agree`, and so they are rendered alike (`Nodes.render_of_names`).

Of the filters, the cloze filter alone looks at the number and the side of the card, and it alone
can fail. So a tree without it is rendered in every context, and to the same text whatever the
number and the side are (`Nodes.exists_render_of_plain`).
-/

namespace Flashcards

/-- A field that is not kept has the empty value, and all others have what they had. -/
theorem Fields.value_filter (fields : Fields) (keeps : String → Bool) (name : String) :
    Fields.value (fields.filter fun (key, _) => keeps key) name
      = if keeps name then fields.value name else "" := by
  unfold value
  induction fields with
  | nil => simp [Bindings.find?]
  | cons head rest ih =>
      obtain ⟨key, text⟩ := head
      by_cases hkeeps : keeps key
      · rw [List.filter_cons_of_pos (by simpa using hkeeps), Bindings.find?, Bindings.find?]
        by_cases hkey : key = name
        · rw [if_pos hkey, if_pos hkey, ← hkey, if_pos hkeeps]
        · rw [if_neg hkey, if_neg hkey, ih]
      · rw [List.filter_cons_of_neg (by simpa using hkeeps), ih]
        by_cases hkey : key = name
        · rw [← hkey, if_neg hkeeps, if_neg hkeeps]
        · rw [Bindings.find?, if_neg hkey]

/-- The fields but for one. -/
def Fields.without (fields : Fields) (name : String) : Fields :=
  fields.filter fun (key, _) => key ≠ name

theorem Fields.value_without (fields : Fields) (name other : String) :
    (fields.without name).value other = if name = other then "" else fields.value other := by
  rw [without, value_filter fields fun key => key ≠ name]
  by_cases hother : name = other
  · simp [hother]
  · simp [hother, Ne.symm hother]

namespace Template

/-! ## Filters that do not look at the card -/

/-- All filters but one look at the value alone. -/
theorem apply_of_plain {filter : Filter} (h : filter ≠ .cloze) (ordinal ordinal' : Int)
    (side side' : Side) (value : String) :
    filter.apply ordinal side value = filter.apply ordinal' side' value := by
  cases filter with
  | cloze => exact absurd rfl h
  | text | hint | furigana | typing | kanji | kana => rfl

/-- A field without the cloze filter shows the same wherever it has the same value. -/
theorem FieldRef.render_of_plain {ref : FieldRef} {context other : Context}
    (hplain : .cloze ∉ ref.filters)
    (hvalue : context.fields.value ref.name = other.fields.value ref.name) :
    ref.render context = ref.render other := by
  have hfilters : ∀ filters : List Filter, .cloze ∉ filters →
      applyFilters context (context.fields.value ref.name) filters
        = applyFilters other (context.fields.value ref.name) filters := by
    intro filters h
    induction filters with
    | nil => rfl
    | cons filter inner ih =>
        obtain ⟨hfilter, hinner⟩ := not_or.mp fun hor => h (List.mem_cons.mpr hor)
        rw [applyFilters_cons, applyFilters_cons, ih hinner]
        exact congrArg (applyFilters other _ inner >>= ·)
          (funext fun value => apply_of_plain (Ne.symm hfilter) _ _ _ _ value)
  rw [render, hfilters _ hplain, hvalue, render]

theorem FieldRef.not_overlong_of_plain {ref : FieldRef} (h : .cloze ∉ ref.filters)
    (context : Context) : ¬ ref.Overlong context := by
  rintro ⟨outer, inner, handed, hfilters, -, -⟩
  rw [hfilters] at h
  exact h (List.mem_append_right _ (List.mem_cons_self ..))

/-! ## Names -/

namespace Nodes

variable {nodes : Nodes} {fields other : Fields}

/-- The names that a tree lists: of the fields it shows and of its sections. -/
def names (nodes : Nodes) : List String := nodes.fieldRefs.map FieldRef.name ++ nodes.sectionNames

theorem name_mem_names {ref : FieldRef} (h : ref ∈ nodes.fieldRefs) : ref.name ∈ nodes.names :=
  List.mem_append_left _ (List.mem_map_of_mem h)

theorem sectionName_mem_names {name : String} (h : name ∈ nodes.sectionNames) :
    name ∈ nodes.names :=
  List.mem_append_right _ h

theorem agree_sections {context another : Context}
    (h : ∀ name ∈ nodes.names, context.fields.value name = another.fields.value name) :
    ∀ name ∈ nodes.sectionNames, context.fields.isSet name = another.fields.isSet name := by
  intro name hname
  rw [Fields.isSet, Fields.isSet, h name (sectionName_mem_names hname)]

/-- On the same side of the same card a tree cannot tell fields apart that have the same values
under its names. -/
theorem render_congr (h : ∀ name ∈ nodes.names, fields.value name = other.value name)
    (ordinal : Int) (side : Side) :
    nodes.render ⟨fields, ordinal, side⟩ = nodes.render ⟨other, ordinal, side⟩ := by
  refine Agree.render_eq ⟨?_, agree_sections h⟩
  intro ref hmem
  exact FieldRef.render_congr (h ref.name (name_mem_names hmem)) rfl rfl

/-- What a tree shows is among what it lists. -/
theorem mem_fieldRefs_of_shown {context : Context} {ref : FieldRef}
    (h : ref ∈ nodes.shown context) : ref ∈ nodes.fieldRefs := by
  induction nodes with
  | nil => cases h
  | text literal rest ih => exact ih h
  | field first rest ih =>
      rcases List.mem_cons.mp h with hfirst | hrest
      · exact hfirst ▸ List.mem_cons_self ..
      · exact List.mem_cons_of_mem _ (ih hrest)
  | block name negate body rest ihb ihr =>
      rw [fieldRefs_block]
      rcases List.mem_append.mp h with hbody | hrest
      · split at hbody
        · exact List.mem_append_left _ (ihb hbody)
        · cases hbody
      · exact List.mem_append_right _ (ihr hrest)

/-- **Without the cloze filter a tree has a text, and it is that of every card with these values,
on either side.** -/
theorem exists_render_of_plain (hplain : ∀ ref ∈ nodes.fieldRefs, .cloze ∉ ref.filters)
    (fields : Fields) :
    ∃ text, ∀ other : Fields, (∀ name ∈ nodes.names, fields.value name = other.value name) →
      ∀ ordinal side, nodes.render ⟨other, ordinal, side⟩ = .ok text := by
  have hfits : ¬ nodes.Overlong ⟨fields, 0, .question⟩ := by
    rintro ⟨ref, hshown, hover⟩
    exact ref.not_overlong_of_plain (hplain ref (mem_fieldRefs_of_shown hshown)) _ hover
  obtain ⟨text, htext⟩ := render_ok_iff.mpr hfits
  refine ⟨text, fun other hvalues ordinal side => ?_⟩
  rw [← htext]
  refine Agree.render_eq ⟨?_, agree_sections fun name hname => (hvalues name hname).symm⟩
  intro ref hmem
  exact FieldRef.render_of_plain (hplain ref hmem) (hvalues ref.name (name_mem_names hmem)).symm

/--
**A rendering depends on the fields that the tree names, and on no others.**

Over fields with the same values under the names of the tree, a missing field counting as an empty
one, the outcome is the same on the same side of the same card: the same text, unless a field that
is shown has a number that is too long, and then the same failure. Without the cloze filter there
is always a text, and it is the same on every side of every card. So nothing changes when a field
that the tree does not name is bound or left out, or when one that is empty is left out.
-/
theorem render_of_names (nodes : Nodes) (fields : Fields) :
    (∀ other : Fields, (∀ name ∈ nodes.names, fields.value name = other.value name) →
      (∀ ordinal side,
        nodes.render ⟨fields, ordinal, side⟩ = nodes.render ⟨other, ordinal, side⟩ ∧
        ((∃ text, nodes.render ⟨fields, ordinal, side⟩ = .ok text)
          ↔ ¬ nodes.Overlong ⟨fields, ordinal, side⟩)) ∧
      ((∀ ref ∈ nodes.fieldRefs, .cloze ∉ ref.filters) →
        ∃ text, ∀ ordinal side, nodes.render ⟨fields, ordinal, side⟩ = .ok text ∧
          nodes.render ⟨other, ordinal, side⟩ = .ok text)) ∧
    (∀ name, name ∉ nodes.names → ∀ ordinal side,
      (∀ text, nodes.render ⟨Bindings.bind name text fields, ordinal, side⟩
        = nodes.render ⟨fields, ordinal, side⟩) ∧
      nodes.render ⟨fields.without name, ordinal, side⟩
        = nodes.render ⟨fields, ordinal, side⟩) ∧
    ∀ name, fields.value name = "" → ∀ ordinal side,
      nodes.render ⟨fields.without name, ordinal, side⟩
        = nodes.render ⟨fields, ordinal, side⟩ := by
  refine ⟨fun other hvalues => ⟨?_, ?_⟩, ?_, ?_⟩
  · exact fun ordinal side => ⟨render_congr hvalues ordinal side, render_ok_iff⟩
  · intro hplain
    obtain ⟨text, htext⟩ := exists_render_of_plain hplain fields
    exact ⟨text, fun ordinal side => ⟨htext fields (fun _ _ => rfl) ordinal side,
      htext other hvalues ordinal side⟩⟩
  · intro name hname ordinal side
    have hne : ∀ used ∈ nodes.names, name ≠ used := fun used hused h => hname (h ▸ hused)
    refine ⟨fun text => render_congr ?_ ordinal side, render_congr ?_ ordinal side⟩
    · intro used hused
      rw [Fields.value_bind, if_neg (hne used hused)]
    · intro used hused
      rw [Fields.value_without, if_neg (hne used hused)]
  · intro name hempty ordinal side
    refine render_congr (fun used _ => ?_) ordinal side
    rw [Fields.value_without]
    split
    · rename_i hused
      rw [← hused, hempty]
    · rfl

/-- A section that is shown where `S` is not set, and a field behind it. -/
def namingSample : Nodes := .block "S" true (.field ⟨"F", [.hint]⟩ .nil) (.field ⟨"G", []⟩ .nil)

/-- The fields are in another order, the empty one is missing, and there is one that is not
named. -/
theorem render_of_names_sample :
    (∀ name ∈ namingSample.names, Fields.value [("S", "s"), ("F", ""), ("G", "g")] name
      = Fields.value [("H", "h"), ("G", "g"), ("S", "s")] name) ∧
    (∃ text, ∀ ordinal side,
      namingSample.render ⟨[("S", "s"), ("F", ""), ("G", "g")], ordinal, side⟩ = .ok text ∧
        namingSample.render ⟨[("H", "h"), ("G", "g"), ("S", "s")], ordinal, side⟩ = .ok text) ∧
    (∀ ordinal side,
      namingSample.render ⟨[("S", "s"), ("F", ""), ("G", "g"), ("H", "h")], ordinal, side⟩
        = namingSample.render ⟨[("S", "s"), ("F", ""), ("G", "g")], ordinal, side⟩) ∧
    ∀ ordinal side,
      namingSample.render ⟨[("S", "s"), ("G", "g")], ordinal, side⟩
        = namingSample.render ⟨[("S", "s"), ("F", ""), ("G", "g")], ordinal, side⟩ := by
  have hvalues : ∀ name ∈ namingSample.names,
      Fields.value [("S", "s"), ("F", ""), ("G", "g")] name
        = Fields.value [("H", "h"), ("G", "g"), ("S", "s")] name := by decide
  obtain ⟨hsame, hother, hempty⟩ :=
    render_of_names namingSample [("S", "s"), ("F", ""), ("G", "g")]
  exact ⟨hvalues, (hsame _ hvalues).2 (by decide),
    fun ordinal side => (hother "H" (by decide) ordinal side).1 "h",
    hempty "F" (by decide)⟩

end Nodes

end Template

end Flashcards
