import Flashcards.Package
import Flashcards.Proofs.Making

/-!
# How notes come into a package

The notes of a deck are looked at one after the other, and each either goes into the package or stays
out. Three counters go along. What one note does to them is said by `gather_cons_ok`; that they agree
with each other, and with the notes that went in, is an invariant of the walk (`gather_balanced`).
-/

namespace Flashcards.Package

variable {clozeFields? : Option (List String)} {before gathered : Gathered} {notes : List Note}

/-- The counters agree: what was looked at went in or stayed out, and what went in is there. -/
structure Gathered.Balanced (gathered : Gathered) : Prop where
  seen : gathered.seen = gathered.exported + gathered.skipped
  exported : gathered.exported = gathered.notes.length

theorem Gathered.balanced_start : Gathered.start.Balanced := ⟨rfl, rfl⟩

theorem Gathered.Balanced.add (h : before.Balanced) (note : Note) : (before.add note).Balanced where
  seen := by
    have hseen := h.seen
    simp only [Gathered.add]
    omega
  exported := by simp [Gathered.add, h.exported]

theorem Gathered.Balanced.skip (h : before.Balanced) : before.skip.Balanced where
  seen := by
    have hseen := h.seen
    simp only [Gathered.skip]
    omega
  exported := h.exported

/-- What one note does: it stays out, or it goes in. -/
theorem gather_cons_ok {note : Note} {rest : List Note}
    (h : gather clozeFields? before (note :: rest) = .ok gathered) :
    (staysOut clozeFields? note = .ok true ∧ gather clozeFields? before.skip rest = .ok gathered) ∨
    (staysOut clozeFields? note = .ok false ∧
      gather clozeFields? (before.add note) rest = .ok gathered) := by
  obtain ⟨out, hout, hrest⟩ := bind_eq_ok h
  cases out with
  | true => exact .inl ⟨hout, hrest⟩
  | false => exact .inr ⟨hout, hrest⟩

/-- **The counters stay in balance**, and every note is looked at. -/
theorem gather_balanced (hbefore : before.Balanced)
    (h : gather clozeFields? before notes = .ok gathered) :
    gathered.Balanced ∧ gathered.seen = before.seen + notes.length := by
  induction notes generalizing before with
  | nil =>
      cases h
      exact ⟨hbefore, rfl⟩
  | cons note rest ih =>
      rcases gather_cons_ok h with ⟨-, hrest⟩ | ⟨-, hrest⟩
      · obtain ⟨hbalanced, hseen⟩ := ih hbefore.skip hrest
        refine ⟨hbalanced, hseen.trans ?_⟩
        simp only [Gathered.skip, List.length_cons]
        omega
      · obtain ⟨hbalanced, hseen⟩ := ih (hbefore.add note) hrest
        refine ⟨hbalanced, hseen.trans ?_⟩
        simp only [Gathered.add, List.length_cons]
        omega

/-- Of every note it could be told whether it stays out. -/
theorem staysOut_of_gather (h : gather clozeFields? before notes = .ok gathered) :
    ∀ note ∈ notes, ∃ out, staysOut clozeFields? note = .ok out := by
  induction notes generalizing before with
  | nil => simp
  | cons note rest ih =>
      rw [List.forall_mem_cons]
      rcases gather_cons_ok h with ⟨hout, hrest⟩ | ⟨hout, hrest⟩
      · exact ⟨⟨true, hout⟩, ih hrest⟩
      · exact ⟨⟨false, hout⟩, ih hrest⟩

/-- Where this can be told, the notes that go in are those that do not stay out, in their order. -/
theorem gather_of_staysOut (before : Gathered) {out : Note → Prop} [DecidablePred out]
    (h : ∀ note ∈ notes, staysOut clozeFields? note = .ok (decide (out note))) :
    ∃ gathered, gather clozeFields? before notes = .ok gathered ∧
      gathered.notes = before.notes ++ notes.filter fun note => ¬ out note := by
  induction notes generalizing before with
  | nil => exact ⟨before, rfl, (List.append_nil _).symm⟩
  | cons note rest ih =>
      obtain ⟨hfirst, hrest⟩ := List.forall_mem_cons.mp h
      rw [gather, hfirst]
      by_cases hout : out note
      · obtain ⟨gathered, hgather, hnotes⟩ := ih before.skip hrest
        refine ⟨gathered, ?_, ?_⟩
        · simpa [hout, bind, Except.bind] using hgather
        · simpa [hout, Gathered.skip] using hnotes
      · obtain ⟨gathered, hgather, hnotes⟩ := ih (before.add note) hrest
        refine ⟨gathered, ?_, ?_⟩
        · simpa [hout, bind, Except.bind] using hgather
        · simpa [hout, Gathered.add] using hnotes

/-- From the start on, these notes are what the walk comes to, and its counters agree. -/
theorem gather_start {out : Note → Prop} [DecidablePred out]
    (h : ∀ note ∈ notes, staysOut clozeFields? note = .ok (decide (out note))) :
    ∃ gathered, gather clozeFields? .start notes = .ok gathered ∧
      gathered.notes = (notes.filter fun note => ¬ out note) ∧ gathered.Balanced ∧
      gathered.seen = notes.length := by
  obtain ⟨gathered, hgather, hnotes⟩ := gather_of_staysOut .start h
  obtain ⟨hbalanced, hseen⟩ := gather_balanced Gathered.balanced_start hgather
  exact ⟨gathered, hgather, hnotes, hbalanced, hseen.trans (Nat.zero_add _)⟩

end Flashcards.Package
