import Flashcards.Proofs.Drafts
import Flashcards.Render

/-!
# What a rendering depends on

A tree looks at the fields of a note in two places only: where it shows one, and where a section
asks whether one is set. Two contexts that agree on both, for this tree, cannot be told apart by
rendering it (`Nodes.Agree.render_eq`).

The walk over a tree keeps what is still to be visited in a list, so the statement is proved of the
whole list, and each step of the walk hands the agreement on to the sequences it leaves behind.
-/

namespace Flashcards.Template

namespace Nodes

/-! ## The names in a section -/

theorem fieldRefs_block (name : String) (negate : Bool) (body rest : Nodes) :
    (Nodes.block name negate body rest).fieldRefs = body.fieldRefs ++ rest.fieldRefs := by
  simp [fieldRefs, marks_block]

theorem sectionNames_block (name : String) (negate : Bool) (body rest : Nodes) :
    (Nodes.block name negate body rest).sectionNames
      = name :: (body.sectionNames ++ rest.sectionNames) := by
  simp [sectionNames, marks_block]

/-! ## Agreement -/

/-- Two contexts that a tree cannot tell apart. -/
structure Agree (nodes : Nodes) (context other : Context) : Prop where
  /-- What is shown of a field is the same. -/
  fields : ∀ ref ∈ nodes.fieldRefs, ref.render context = ref.render other
  /-- A section is shown in both or in neither. -/
  sections : ∀ name ∈ nodes.sectionNames, context.fields.isSet name = other.fields.isSet name

variable {context other : Context} {name literal : String} {negate : Bool} {ref : FieldRef}
  {body rest : Nodes}

theorem Agree.of_text (h : (Nodes.text literal rest).Agree context other) :
    rest.Agree context other :=
  ⟨h.fields, h.sections⟩

theorem Agree.of_field (h : (Nodes.field ref rest).Agree context other) :
    ref.render context = ref.render other ∧ rest.Agree context other := by
  obtain ⟨hshown, hrest⟩ := List.forall_mem_cons.mp h.fields
  exact ⟨hshown, hrest, h.sections⟩

theorem Agree.of_block (h : (Nodes.block name negate body rest).Agree context other) :
    showsSection context name negate = showsSection other name negate ∧
      body.Agree context other ∧ rest.Agree context other := by
  obtain ⟨hfields, hsections⟩ := h
  rw [fieldRefs_block] at hfields
  rw [sectionNames_block] at hsections
  refine ⟨?_, ⟨?_, ?_⟩, ⟨?_, ?_⟩⟩
  · rw [showsSection, showsSection, hsections name (List.mem_cons_self ..)]
  · exact fun ref hmem => hfields ref (List.mem_append_left _ hmem)
  · exact fun name hmem => hsections name (List.mem_cons_of_mem _ (List.mem_append_left _ hmem))
  · exact fun ref hmem => hfields ref (List.mem_append_right _ hmem)
  · exact fun name hmem => hsections name (List.mem_cons_of_mem _ (List.mem_append_right _ hmem))

end Nodes

/-- Whatever was written so far, sequences on which two contexts agree are rendered alike. -/
theorem renderAgenda_congr {context other : Context} (agenda : List Nodes) (written : String)
    (h : ∀ nodes ∈ agenda, nodes.Agree context other) :
    renderAgenda context agenda written = renderAgenda other agenda written := by
  fun_induction renderAgenda context agenda written with
  | case1 written => rw [renderAgenda]
  | case2 written later ih =>
      rw [renderAgenda]
      exact ih fun nodes hmem => h nodes (List.mem_cons_of_mem _ hmem)
  | case3 written literal rest later ih =>
      obtain ⟨hhead, hlater⟩ := List.forall_mem_cons.mp h
      rw [renderAgenda]
      exact ih (List.forall_mem_cons.mpr ⟨hhead.of_text, hlater⟩)
  | case4 written ref rest later ih =>
      obtain ⟨hhead, hlater⟩ := List.forall_mem_cons.mp h
      obtain ⟨hshown, hrest⟩ := hhead.of_field
      rw [renderAgenda, hshown]
      cases ref.render other with
      | error fault => rfl
      | ok shown => exact ih shown (List.forall_mem_cons.mpr ⟨hrest, hlater⟩)
  | case5 written name negate body rest later hshown ih =>
      obtain ⟨hhead, hlater⟩ := List.forall_mem_cons.mp h
      obtain ⟨hsame, hbody, hrest⟩ := hhead.of_block
      rw [renderAgenda, ← hsame, if_pos hshown]
      exact ih (List.forall_mem_cons.mpr ⟨hbody, List.forall_mem_cons.mpr ⟨hrest, hlater⟩⟩)
  | case6 written name negate body rest later hskipped ih =>
      obtain ⟨hhead, hlater⟩ := List.forall_mem_cons.mp h
      obtain ⟨hsame, -, hrest⟩ := hhead.of_block
      rw [renderAgenda, ← hsame, if_neg hskipped]
      exact ih (List.forall_mem_cons.mpr ⟨hrest, hlater⟩)

/-- **A rendering depends on what the tree shows and asks for, and on nothing else.** -/
theorem Nodes.Agree.render_eq {nodes : Nodes} {context other : Context}
    (h : nodes.Agree context other) : nodes.render context = nodes.render other :=
  renderAgenda_congr [nodes] "" (List.forall_mem_singleton.mpr h)

theorem applyFilters_cons (context : Context) (value : String) (filter : Filter)
    (inner : List Filter) :
    applyFilters context value (filter :: inner)
      = applyFilters context value inner >>= filter.apply context.ordinal context.side := rfl

/-- Fields that have the same value everywhere are shown alike, on the same side of the same
card. -/
theorem FieldRef.render_congr {context other : Context} {ref : FieldRef}
    (hvalue : context.fields.value ref.name = other.fields.value ref.name)
    (hordinal : context.ordinal = other.ordinal) (hside : context.side = other.side) :
    ref.render context = ref.render other := by
  have hfilters : ∀ filters, applyFilters context (context.fields.value ref.name) filters
      = applyFilters other (context.fields.value ref.name) filters := by
    intro filters
    induction filters with
    | nil => rfl
    | cons filter inner ih => rw [applyFilters_cons, applyFilters_cons, ih, hordinal, hside]
  rw [render, hfilters, hvalue, render]

end Flashcards.Template
