import Flashcards.Proofs.Masking
import Flashcards.Proofs.Readback

/-!
# Values that texts stand for

Not every value has a text. A whole number can be too long to be read, and an object whose keys are
not all different is never read, since of members with one key the last one counts. What is read is
`Value.Proper`.

The reader puts values together while lists and objects are open around them, so the open ones have
to be proper as well (`Frame.Proper`). Reading and delivering then keep all of them proper, by one
induction over both (`reads_proper`). What is read need not be `Value.Storable`, as a number with a
point may be among it.
-/

namespace Flashcards.Json

/-- A value that a text can stand for: whole numbers are not too long, and the keys of an object
differ. -/
inductive Value.Proper : Value → Prop
  | null : Proper .null
  | bool (b : Bool) : Proper (.bool b)
  | int (n : Int) (h : (Nat.toDigits 10 n.natAbs).length ≤ Numeral.digitLimit) : Proper (.int n)
  | float (x : Float) : Proper (.float x)
  | str (s : String) : Proper (.str s)
  | arr (items : List Value) (h : ∀ item ∈ items, Proper item) : Proper (.arr items)
  | obj (members : List (String × Value)) (hkeys : (Bindings.keys members).Nodup)
      (h : ∀ member ∈ members, Proper member.2) : Proper (.obj members)

/-- An open list or object holds proper values only. -/
def Frame.Proper : Frame → Prop
  | .list done => ∀ v ∈ done, v.Proper
  | .object done _ => (Bindings.keys done).Nodup ∧ ∀ member ∈ done, member.2.Proper

variable {cs rest : List Char} {v : Value} {stack : List Frame}

/-! ## Numbers and words -/

theorem length_toDigits_value_le {digits : List Char} (h : ∀ c ∈ digits, Numeral.isDigit c = true)
    (hlimit : digits.length ≤ Numeral.digitLimit) :
    (Nat.toDigits 10 (Numeral.value digits)).length ≤ Numeral.digitLimit := by
  refine (Nat.length_toDigits_le_iff (by decide) (by decide)).mpr ?_
  exact (Numeral.value_lt h).trans_le (Nat.pow_le_pow_right (by decide) hlimit)

theorem isDigit_of_mem_takeWhole {c : Char} (h : c ∈ (takeWhole cs).1) :
    Numeral.isDigit c = true := by
  unfold takeWhole at h
  split at h
  · rw [List.mem_singleton.mp h]
    rfl
  · exact List.mem_takeWhile_imp h

theorem proper_readUnsigned {negative : Bool} {start : List Char}
    (h : readUnsigned negative start cs = .ok (v, rest)) : v.Proper := by
  unfold readUnsigned at h
  dsimp only at h
  split at h
  · cases h
  · split at h
    · -- a whole number, of as many digits as were taken
      rw [Numeral.ofDigits] at h
      split at h
      · cases h
      · rename_i n hn
        split at hn
        · cases hn
        · rename_i hfits
          cases hn
          have hdigits := length_toDigits_value_le (fun _ => isDigit_of_mem_takeWhole)
            (Nat.le_of_not_lt hfits)
          cases negative with
          | true =>
              cases h
              exact .int _ (by simpa using hdigits)
          | false =>
              cases h
              exact .int _ (by simpa using hdigits)
    · cases h
      exact .float _

theorem proper_readNumber (h : readNumber cs = .ok (v, rest)) : v.Proper := by
  unfold readNumber at h
  split at h
  · exact proper_readUnsigned h
  · exact proper_readUnsigned h

theorem proper_wordValues : ∀ entry ∈ wordValues, entry.2.Proper := by
  simp only [wordValues, List.forall_mem_cons]
  exact ⟨.null, .bool _, .bool _, .float _, .float _, .float _, by simp⟩

theorem proper_readScalar (h : readScalar cs = .ok (v, rest)) : v.Proper := by
  unfold readScalar at h
  split at h
  · rename_i behind
    cases hs : readString ('"' :: behind) [] behind with
    | error stop => rw [hs] at h; cases h
    | ok pair => rw [hs] at h; cases h; exact .str _
  · split at h
    · rename_i found hfound
      cases h
      obtain ⟨entry, hentry, hpair⟩ := List.exists_of_findSome?_eq_some hfound
      obtain ⟨_, -, hpair⟩ := Option.map_eq_some_iff.mp hpair
      cases hpair
      exact proper_wordValues entry hentry
    · exact proper_readNumber h

/-! ## Lists and objects -/

/-- One more member keeps the members of an object proper. -/
theorem proper_bind {done : Bindings String Value} {key : String}
    (hdone : (Bindings.keys done).Nodup ∧ ∀ member ∈ done, member.2.Proper) (hv : v.Proper) :
    (Bindings.keys (Bindings.bind key v done)).Nodup ∧
      ∀ member ∈ Bindings.bind key v done, member.2.Proper := by
  refine ⟨Bindings.nodup_keys_bind hdone.1, fun member hmember => ?_⟩
  rcases Bindings.mem_of_mem_bind hmember with rfl | hmember
  · exact hv
  · exact hdone.2 member hmember

/-- What is read with these lists and objects open is proper. -/
def ReadsProper (stack : List Frame) (cs : List Char) : Prop :=
  (∀ frame ∈ stack, frame.Proper) → ∀ v rest, readValue stack cs = .ok (v, rest) → v.Proper

/-- What comes of delivering the value is proper. -/
def DeliversProper (v : Value) (stack : List Frame) (cs : List Char) : Prop :=
  v.Proper → (∀ frame ∈ stack, frame.Proper) →
    ∀ w rest, deliver v stack cs = .ok (w, rest) → w.Proper

/-- **Reading and delivering make proper values only.** The cases are the steps of the reader; those
in which it stops make nothing. -/
theorem reads_proper : (∀ stack cs, ReadsProper stack cs) ∧ ∀ v stack cs, DeliversProper v stack cs := by
  refine readValue.mutual_induct ReadsProper DeliversProper ?emptyList ?list ?emptyObject ?noKey
    ?object ?noScalar ?scalar ?done ?listEnd ?listNext ?listStops ?objectEnd ?objectNoKey
    ?objectNext ?objectStops
  case emptyList =>
    intro stack rest behind hskip ih hstack w left h
    rw [readValue_emptyList hskip] at h
    exact ih (.arr [] (by simp)) hstack w left h
  case list =>
    intro stack rest hskip ih hstack w left h
    rw [readValue_list hskip] at h
    have hopen : (Frame.list []).Proper := by simp [Frame.Proper]
    exact ih (List.forall_mem_cons.mpr ⟨hopen, hstack⟩) w left h
  case emptyObject =>
    intro stack rest behind hskip ih hstack w left h
    rw [readValue_emptyObject hskip] at h
    exact ih (.obj [] List.nodup_nil (by simp)) hstack w left h
  case noKey =>
    intro stack rest stop hkey hskip hstack w left h
    rw [readValue] at h
    split at h
    · simp_all
    · split at h
      · cases h
      · simp_all
  case object =>
    intro stack rest key behind hkey hskip ih hstack w left h
    rw [readValue_object hkey] at h
    have hopen : (Frame.object [] key).Proper := by simp [Frame.Proper, Bindings.keys]
    exact ih (List.forall_mem_cons.mpr ⟨hopen, hstack⟩) w left h
  case noScalar =>
    intro stack cs hlist hobject stop hscalar hstack w left h
    rw [readValue.eq_3 _ _ hlist hobject] at h
    split at h
    · cases h
    · simp_all
  case scalar =>
    intro stack cs hlist hobject v behind hscalar ih hstack w left h
    rw [readValue_scalar hlist hobject hscalar] at h
    exact ih (proper_readScalar hscalar) hstack w left h
  case done =>
    intro v cs hv _ w left h
    rw [deliver] at h
    cases h
    exact hv
  case listEnd =>
    intro v cs done outer behind hskip ih hv hstack w left h
    obtain ⟨hdone, houter⟩ := List.forall_mem_cons.mp hstack
    rw [deliver_list_end hskip, ← List.reverse_cons] at h
    refine ih (.arr _ fun item hitem => ?_) houter w left h
    exact List.forall_mem_cons.mpr ⟨hv, hdone⟩ item (List.mem_reverse.mp hitem)
  case listNext =>
    intro v cs done outer behind hskip ih hv hstack w left h
    obtain ⟨hdone, houter⟩ := List.forall_mem_cons.mp hstack
    rw [deliver_list_next hskip] at h
    have hopen : (Frame.list (v :: done)).Proper := List.forall_mem_cons.mpr ⟨hv, hdone⟩
    exact ih (List.forall_mem_cons.mpr ⟨hopen, houter⟩) w left h
  case listStops =>
    intro v cs done outer hend hnext hv hstack w left h
    rw [deliver] at h
    split at h
    · simp_all
    · simp_all
    · cases h
  case objectEnd =>
    intro v cs done key outer behind hskip ih hv hstack w left h
    obtain ⟨hdone, houter⟩ := List.forall_mem_cons.mp hstack
    rw [deliver_object_end hskip] at h
    have hmembers : (Frame.object (Bindings.bind key v done) key).Proper := proper_bind hdone hv
    exact ih (.obj _ hmembers.1 hmembers.2) houter w left h
  case objectNoKey =>
    intro v cs done key outer behind hskip stop hkey hv hstack w left h
    rw [deliver] at h
    split at h
    · simp_all
    · split at h
      · cases h
      · simp_all
    · cases h
  case objectNext =>
    intro v cs done key outer behind hskip next rest hkey ih hv hstack w left h
    obtain ⟨hdone, houter⟩ := List.forall_mem_cons.mp hstack
    rw [deliver_object_next hskip hkey] at h
    have hopen : (Frame.object (Bindings.bind key v done) next).Proper := proper_bind hdone hv
    exact ih (List.forall_mem_cons.mpr ⟨hopen, houter⟩) w left h
  case objectStops =>
    intro v cs done key outer hend hnext hv hstack w left h
    rw [deliver] at h
    split at h
    · simp_all
    · simp_all
    · cases h

/-- **What a text stands for is proper.** -/
theorem proper_of_read {text : List Char} (h : read text = .ok v) : v.Proper := by
  unfold read at h
  split at h
  · cases h
  · split at h
    · cases h
    · rename_i w behind hread
      split at h
      · cases h
        exact reads_proper.1 [] _ (by simp) _ _ hread
      · cases h

end Flashcards.Json
