import Flashcards.Json.Writer
import Flashcards.Proofs.Bindings
import Flashcards.Proofs.Scalars
import Flashcards.Proofs.Text

/-!
# Written values are read again

The reader meets the text of a value with lists and objects open around it and more text behind it.
`Reads` says that from there it takes off just that text and delivers the value. For the items of a
list and the members of an object it is assumed, and the text of the whole is taken apart in the
order in which it was put together, so the rest is an induction on the value (`Storable.reads`).

Two things have to be known about the text of a value besides. What comes behind it does not go on
with a numeral, or digits of the one would be read as digits of the other. And it begins with a mark
that is no closing bracket, or a list that holds it would be taken for an empty one.
-/

namespace Flashcards.Json

variable {layout : Layout} {depth : Nat} {stack outer : List Frame} {v : Value} {c : Char}
  {cs rest behind : List Char}

/-- A value that is kept when it is stored: numbers are whole and not too long, and the keys of an
object differ. -/
inductive Value.Storable : Value → Prop
  | null : Storable .null
  | bool (b : Bool) : Storable (.bool b)
  | int (n : Int) (h : (Nat.toDigits 10 n.natAbs).length ≤ Numeral.digitLimit) : Storable (.int n)
  | str (s : String) : Storable (.str s)
  | arr (items : List Value) (h : ∀ item ∈ items, Storable item) : Storable (.arr items)
  | obj (members : List (String × Value)) (hkeys : (Bindings.keys members).Nodup)
      (h : ∀ member ∈ members, Storable member.2) : Storable (.obj members)

namespace Value

@[simp] theorem storable_null : Value.null.Storable := .null

@[simp] theorem storable_bool (b : Bool) : (Value.bool b).Storable := .bool b

@[simp] theorem storable_str (s : String) : (Value.str s).Storable := .str s

@[simp] theorem storable_arr_iff {items : List Value} :
    (Value.arr items).Storable ↔ ∀ item ∈ items, item.Storable := by
  constructor
  · rintro ⟨⟩
    assumption
  · exact .arr items

@[simp] theorem storable_obj_iff {members : List (String × Value)} : (Value.obj members).Storable ↔
    (Bindings.keys members).Nodup ∧ ∀ member ∈ members, member.2.Storable := by
  constructor
  · rintro ⟨⟩
    constructor <;> assumption
  · exact fun h => .obj members h.1 h.2

@[simp] theorem storable_ofStrings (texts : List String) : (ofStrings texts).Storable := by
  simp [ofStrings]

end Value

/-! ## Blanks between the parts -/

/-- A character of ASCII that leaves a mark. -/
def Inked (c : Char) : Prop := 0x20 < c.toNat ∧ c.toNat < 0x7F

instance : Decidable (Inked c) := inferInstanceAs (Decidable (_ ∧ _))

theorem Inked.not_isBlank (h : Inked c) : Text.isBlank c = false := by
  obtain ⟨hlow, hhigh⟩ := h
  simp only [Text.isBlank, Bool.or_eq_false_iff, Bool.and_eq_false_iff, decide_eq_false_iff_not,
    beq_eq_false_iff_ne]
  omega

theorem Inked.ne (h : Inked c) (other : Char) (hother : ¬ Inked other) : c ≠ other :=
  fun heq => hother (heq ▸ h)

theorem inked_of_isDigit (h : Numeral.isDigit c = true) : Inked c := by
  simp only [Numeral.isDigit, Bool.and_eq_true, decide_eq_true_eq, Char.le_def] at h
  have hlow : '0'.toNat ≤ c.toNat := h.1
  have hhigh : c.toNat ≤ '9'.toNat := h.2
  have hzero : '0'.toNat = 0x30 := rfl
  have hnine : '9'.toNat = 0x39 := rfl
  unfold Inked
  omega

theorem skipBlank_cons (h : Inked c) : skipBlank (c :: rest) = c :: rest := by
  have hspace := h.ne ' ' (by decide)
  have htab := h.ne '\t' (by decide)
  have hfeed := h.ne '\n' (by decide)
  have hreturn := h.ne '\r' (by decide)
  simp [skipBlank, hspace, htab, hfeed, hreturn]

theorem skipBlank_append (h : ∀ c ∈ cs, c = ' ' ∨ layout = .indented ∧ c = '\n') :
    skipBlank (cs ++ rest) = skipBlank rest := by
  refine List.dropWhile_append_of_pos fun c hc => ?_
  rcases h c hc with rfl | ⟨-, rfl⟩ <;> rfl

theorem Layout.mem_edge (h : c ∈ layout.edge depth) : c = ' ' ∨ layout = .indented ∧ c = '\n' := by
  cases layout with
  | oneLine => cases h
  | indented =>
      rcases List.mem_cons.mp h with hbreak | hspace
      · exact .inr ⟨rfl, hbreak⟩
      · exact .inl (List.eq_of_mem_replicate hspace)

theorem Layout.mem_between (h : c ∈ layout.between depth) :
    c = ' ' ∨ layout = .indented ∧ c = '\n' := by
  cases layout with
  | oneLine => exact .inl (List.mem_singleton.mp h)
  | indented => exact Layout.mem_edge h

theorem skipBlank_edge : skipBlank (layout.edge depth ++ rest) = skipBlank rest :=
  skipBlank_append fun _ => Layout.mem_edge

theorem skipBlank_between : skipBlank (layout.between depth ++ rest) = skipBlank rest :=
  skipBlank_append fun _ => Layout.mem_between

/-! ## Where a value stands -/

/-- The reader takes the text of the value off and delivers the value. -/
def Reads (v : Value) : Prop := ∀ layout depth stack rest, EndsNumeral rest →
  readValue stack (v.chars layout depth ++ rest) = deliver v stack rest

theorem readValue_scalar (hlist : ∀ rest, cs ≠ '[' :: rest) (hobject : ∀ rest, cs ≠ '{' :: rest)
    (h : readScalar cs = .ok (v, behind)) : readValue stack cs = deliver v stack behind := by
  rw [readValue.eq_3 _ _ hlist hobject]
  split
  · simp_all
  · simp_all

theorem readValue_emptyList (h : skipBlank cs = ']' :: rest) :
    readValue stack ('[' :: cs) = deliver (.arr []) stack rest := by
  rw [readValue]
  split
  · simp_all
  · simp_all

theorem readValue_list (h : ∀ behind, skipBlank cs ≠ ']' :: behind) :
    readValue stack ('[' :: cs) = readValue (.list [] :: stack) (skipBlank cs) := by
  rw [readValue]
  split
  · rename_i behind hskip
    exact absurd hskip (h behind)
  · rfl

theorem readValue_emptyObject (h : skipBlank cs = '}' :: rest) :
    readValue stack ('{' :: cs) = deliver (.obj []) stack rest := by
  rw [readValue]
  split
  · simp_all
  · simp_all

theorem readValue_object {key : String} (h : readKey (skipBlank cs) = .ok (key, behind)) :
    readValue stack ('{' :: cs) = readValue (.object [] key :: stack) behind := by
  rw [readValue]
  split
  · -- no key begins with the bracket that closes an object
    rename_i other hskip
    rw [hskip] at h
    cases h
  · split
    · simp_all
    · simp_all

theorem deliver_list_end {done : List Value} (h : skipBlank cs = ']' :: behind) :
    deliver v (.list done :: outer) cs = deliver (.arr (done.reverse ++ [v])) outer behind := by
  rw [deliver]
  split
  · simp_all
  · simp_all
  · simp_all

theorem deliver_list_next {done : List Value} (h : skipBlank cs = ',' :: behind) :
    deliver v (.list done :: outer) cs
      = readValue (.list (v :: done) :: outer) (skipBlank behind) := by
  rw [deliver]
  split
  · simp_all
  · simp_all
  · simp_all

theorem deliver_object_end {done : Bindings String Value} {key : String}
    (h : skipBlank cs = '}' :: behind) :
    deliver v (.object done key :: outer) cs
      = deliver (.obj (Bindings.bind key v done)) outer behind := by
  rw [deliver]
  split
  · simp_all
  · simp_all
  · simp_all

theorem deliver_object_next {done : Bindings String Value} {key next : String}
    (h : skipBlank cs = ',' :: behind) (hkey : readKey (skipBlank behind) = .ok (next, rest)) :
    deliver v (.object done key :: outer) cs
      = readValue (.object (Bindings.bind key v done) next :: outer) rest := by
  rw [deliver]
  split
  · simp_all
  · split
    · simp_all
    · simp_all
  · simp_all

/-! ## How the text of a value begins and ends -/

namespace Value

/-- The text of a value begins with a mark, and with none that closes a list. -/
theorem Storable.begins (h : v.Storable) (layout : Layout) (depth : Nat) :
    ∃ first more, v.chars layout depth = first :: more ∧ Inked first ∧ first ≠ ']' := by
  cases h with
  | null => exact ⟨_, _, by rw [Value.chars], by decide, by decide⟩
  | bool b => cases b <;> exact ⟨_, _, by rw [Value.chars], by decide, by decide⟩
  | int n _ =>
      obtain ⟨first, more, hcons, hdigit | rfl⟩ := intChars_eq_cons n
      · refine ⟨first, more, by rw [Value.chars, hcons], inked_of_isDigit hdigit, ?_⟩
        rintro rfl
        cases hdigit
      · exact ⟨_, _, by rw [Value.chars, hcons], by decide, by decide⟩
  | str s => exact ⟨_, _, by rw [Value.chars, stringChars, List.cons_append], by decide, by decide⟩
  | arr items _ =>
      cases items with
      | nil => exact ⟨_, _, by rw [Value.chars], by decide, by decide⟩
      | cons item rest =>
          exact ⟨_, _, by simp only [Value.chars, List.cons_append]; rfl, by decide, by decide⟩
  | obj members _ _ =>
      cases members with
      | nil => exact ⟨_, _, by rw [Value.chars], by decide, by decide⟩
      | cons member rest =>
          exact ⟨_, _, by simp only [Value.chars, List.cons_append]; rfl, by decide, by decide⟩

/-- The text of a value ends with a mark. -/
theorem Storable.ends (h : v.Storable) (layout : Layout) (depth : Nat) :
    ∃ front last, v.chars layout depth = front ++ [last] ∧ Inked last := by
  cases h with
  | null => exact ⟨['n', 'u', 'l'], 'l', by rw [Value.chars]; rfl, by decide⟩
  | bool b =>
      cases b with
      | true => exact ⟨['t', 'r', 'u'], 'e', by rw [Value.chars]; rfl, by decide⟩
      | false => exact ⟨['f', 'a', 'l', 's'], 'e', by rw [Value.chars]; rfl, by decide⟩
  | int n _ =>
      obtain ⟨front, last, hchars, hdigit⟩ := intChars_eq_append n
      exact ⟨front, last, by rw [Value.chars, hchars], inked_of_isDigit hdigit⟩
  | str s => exact ⟨_, _, by rw [Value.chars, stringChars], by decide⟩
  | arr items _ =>
      cases items with
      | nil => exact ⟨['['], ']', by rw [Value.chars]; rfl, by decide⟩
      | cons item rest => exact ⟨_, _, by rw [Value.chars], by decide⟩
  | obj members _ _ =>
      cases members with
      | nil => exact ⟨['{'], '}', by rw [Value.chars]; rfl, by decide⟩
      | cons member rest => exact ⟨_, _, by rw [Value.chars], by decide⟩

end Value

theorem skipBlank_chars (h : v.Storable) :
    skipBlank (v.chars layout depth ++ rest) = v.chars layout depth ++ rest := by
  obtain ⟨first, more, hcons, hinked, -⟩ := h.begins layout depth
  rw [hcons, List.cons_append, skipBlank_cons hinked]

theorem endsNumeral_edge (h : Numeral.isDigit c = false ∧ c ≠ '.' ∧ c ≠ 'e' ∧ c ≠ 'E') :
    EndsNumeral (layout.edge depth ++ c :: rest) := by
  cases layout with
  | oneLine => exact endsNumeral_cons h
  | indented => exact endsNumeral_cons (by decide)

/-! ## Lists -/

section Lists

variable {up : Nat} {items : List Value}

theorem endsNumeral_moreItems (items : List Value) (rest : List Char) :
    EndsNumeral (moreItems layout depth items ++ (layout.edge up ++ ']' :: rest)) := by
  cases items with
  | nil => exact endsNumeral_edge (by decide)
  | cons item items =>
      simp only [moreItems, List.cons_append]
      exact endsNumeral_cons (by decide)

/-- With one item delivered, the further ones are read up to the bracket that closes the list. -/
theorem deliver_moreItems {done : List Value} (hstorable : ∀ item ∈ items, item.Storable)
    (hreads : ∀ item ∈ items, Reads item) :
    deliver v (.list done :: outer)
        (moreItems layout depth items ++ (layout.edge up ++ ']' :: rest))
      = deliver (.arr (done.reverse ++ v :: items)) outer rest := by
  induction items generalizing v done with
  | nil =>
      rw [moreItems, List.nil_append]
      exact deliver_list_end (skipBlank_edge.trans (skipBlank_cons (by decide)))
  | cons item items ih =>
      obtain ⟨hitem, hitems⟩ := List.forall_mem_cons.mp hstorable
      obtain ⟨hread, hmore⟩ := List.forall_mem_cons.mp hreads
      -- over the comma and the blanks, then over the item, then over the others
      rw [moreItems, List.append_assoc, List.cons_append, List.cons_append, List.append_assoc,
        deliver_list_next (skipBlank_cons (by decide)), skipBlank_between, skipBlank_chars hitem,
        hread layout depth _ _ (endsNumeral_moreItems items rest), ih hitems hmore,
        List.reverse_cons, List.append_assoc]
      rfl

theorem reads_arr (hstorable : ∀ item ∈ items, item.Storable)
    (hreads : ∀ item ∈ items, Reads item) : Reads (.arr items) := by
  intro layout depth stack rest _
  cases items with
  | nil => exact readValue_emptyList (skipBlank_cons (by decide))
  | cons item items =>
      obtain ⟨hitem, hitems⟩ := List.forall_mem_cons.mp hstorable
      obtain ⟨hread, hmore⟩ := List.forall_mem_cons.mp hreads
      obtain ⟨first, more, hcons, hinked, hclose⟩ := hitem.begins layout (depth + 1)
      simp only [Value.chars, List.append_assoc, List.cons_append, List.nil_append]
      have hskip : skipBlank (layout.edge (depth + 1) ++ (item.chars layout (depth + 1) ++
          (moreItems layout (depth + 1) items ++ (layout.edge depth ++ ']' :: rest)))) = _ :=
        skipBlank_edge.trans (skipBlank_chars hitem)
      rw [hcons, List.cons_append] at hskip
      -- the first item is read with the list open around it
      have hopen : ∀ behind, skipBlank _ ≠ ']' :: behind :=
        fun behind heq => hclose (List.cons.inj (hskip.symm.trans heq)).1
      rw [hcons, List.cons_append, readValue_list hopen, hskip, ← List.cons_append, ← hcons,
        hread layout _ _ _ (endsNumeral_moreItems items rest), deliver_moreItems hitems hmore]
      rfl

end Lists

/-! ## Objects -/

section Objects

variable {up : Nat} {member : String × Value} {members : List (String × Value)} {key : String}

/-- A member begins with the quote around its key. -/
theorem memberChars_eq_cons (layout : Layout) (depth : Nat) (member : String × Value) :
    ∃ more, memberChars layout depth member = '"' :: more := by
  obtain ⟨key, value⟩ := member
  exact ⟨_, by rw [memberChars, stringChars, List.cons_append, List.cons_append]⟩

theorem not_mem_keys {done : Bindings String Value}
    (h : (Bindings.keys (done ++ (key, v) :: members)).Nodup) : key ∉ done.keys := by
  rw [Bindings.keys, List.map_append, List.map_cons, List.nodup_append] at h
  exact fun hkey => h.2.2 key hkey key List.mem_cons_self rfl

theorem skipBlank_memberChars :
    skipBlank (memberChars layout depth member ++ rest) = memberChars layout depth member ++ rest := by
  obtain ⟨more, hcons⟩ := memberChars_eq_cons layout depth member
  rw [hcons, List.cons_append, skipBlank_cons (by decide)]

/-- A member is read up to its value. -/
theorem readKey_memberChars (h : member.2.Storable) :
    readKey (memberChars layout depth member ++ rest)
      = .ok (member.1, member.2.chars layout depth ++ rest) := by
  obtain ⟨key, value⟩ := member
  have hspace : skipBlank (' ' :: (value.chars layout depth ++ rest))
      = value.chars layout depth ++ rest := skipBlank_chars h
  simp only [memberChars, stringChars, List.cons_append, List.append_assoc, List.nil_append]
  rw [readKey, readString_stringChars]
  simp only [skipBlank_cons (c := ':') (by decide), hspace]

theorem endsNumeral_moreMembers (members : List (String × Value)) (rest : List Char) :
    EndsNumeral (moreMembers layout depth members ++ (layout.edge up ++ '}' :: rest)) := by
  cases members with
  | nil => exact endsNumeral_edge (by decide)
  | cons member members =>
      simp only [moreMembers, List.cons_append]
      exact endsNumeral_cons (by decide)

/-- With the value of one member delivered, the further members are read up to the bracket that
closes the object. As the keys differ, each member is bound behind the others. -/
theorem deliver_moreMembers {done : Bindings String Value}
    (hkeys : (Bindings.keys (done ++ (key, v) :: members)).Nodup)
    (hstorable : ∀ member ∈ members, member.2.Storable)
    (hreads : ∀ member ∈ members, Reads member.2) :
    deliver v (.object done key :: outer)
        (moreMembers layout depth members ++ (layout.edge up ++ '}' :: rest))
      = deliver (.obj (done ++ (key, v) :: members)) outer rest := by
  induction members generalizing v done key with
  | nil =>
      rw [moreMembers, List.nil_append,
        deliver_object_end (skipBlank_edge.trans (skipBlank_cons (by decide))),
        Bindings.bind_of_fresh (not_mem_keys hkeys)]
  | cons member members ih =>
      obtain ⟨hmember, hmembers⟩ := List.forall_mem_cons.mp hstorable
      obtain ⟨hread, hmore⟩ := List.forall_mem_cons.mp hreads
      rw [moreMembers, List.append_assoc, List.cons_append, List.cons_append, List.append_assoc,
        deliver_object_next (skipBlank_cons (by decide))
          (by rw [skipBlank_between, skipBlank_memberChars, readKey_memberChars hmember]),
        Bindings.bind_of_fresh (not_mem_keys hkeys),
        hread layout depth _ _ (endsNumeral_moreMembers members rest),
        ih (by simpa using hkeys) hmembers hmore, List.append_assoc]
      rfl

theorem reads_obj (hkeys : (Bindings.keys members).Nodup)
    (hstorable : ∀ member ∈ members, member.2.Storable)
    (hreads : ∀ member ∈ members, Reads member.2) : Reads (.obj members) := by
  intro layout depth stack rest _
  cases members with
  | nil => exact readValue_emptyObject (skipBlank_cons (by decide))
  | cons member members =>
      obtain ⟨hmember, hmembers⟩ := List.forall_mem_cons.mp hstorable
      obtain ⟨hread, hmore⟩ := List.forall_mem_cons.mp hreads
      have hkey : readKey (memberChars layout (depth + 1) member ++
          (moreMembers layout (depth + 1) members ++ (layout.edge depth ++ '}' :: rest))) = _ :=
        readKey_memberChars hmember
      have hskip : skipBlank (layout.edge (depth + 1) ++ (memberChars layout (depth + 1) member ++
          (moreMembers layout (depth + 1) members ++ (layout.edge depth ++ '}' :: rest)))) = _ :=
        skipBlank_edge.trans skipBlank_memberChars
      obtain ⟨more, hcons⟩ := memberChars_eq_cons layout (depth + 1) member
      rw [hcons, List.cons_append] at hkey hskip
      simp only [Value.chars, List.append_assoc, List.cons_append, List.nil_append]
      -- as is the value of the first member with the object open under its key
      rw [← hskip] at hkey
      rw [hcons, List.cons_append, readValue_object hkey,
        hread layout _ _ _ (endsNumeral_moreMembers members rest),
        deliver_moreMembers (by exact hkeys) hmembers hmore]
      rfl

end Objects

/-! ## Values -/

/-- **The text of a value is taken off and the value delivered**, whatever is around it. -/
theorem Value.Storable.reads (h : v.Storable) : Reads v := by
  induction h with
  | null =>
      intro layout depth stack rest _
      exact readValue_scalar (by rintro _ ⟨⟩) (by rintro _ ⟨⟩) rfl
  | bool b =>
      intro layout depth stack rest _
      cases b with
      | true => exact readValue_scalar (by rintro _ ⟨⟩) (by rintro _ ⟨⟩) rfl
      | false => exact readValue_scalar (by rintro _ ⟨⟩) (by rintro _ ⟨⟩) rfl
  | int n hn =>
      intro layout depth stack rest hrest
      have hread := readScalar_intChars hn hrest
      obtain ⟨first, more, hcons, hfirst⟩ := intChars_eq_cons n
      rw [Value.chars, hcons, List.cons_append]
      rw [hcons, List.cons_append] at hread
      have hlist : first ≠ '[' := by
        rintro rfl
        simp [Numeral.isDigit] at hfirst
      have hobject : first ≠ '{' := by
        rintro rfl
        simp [Numeral.isDigit] at hfirst
      exact readValue_scalar (fun _ heq => hlist (List.cons.inj heq).1)
        (fun _ heq => hobject (List.cons.inj heq).1) hread
  | str s =>
      intro layout depth stack rest _
      rw [Value.chars, stringChars, List.cons_append, List.cons_append, List.append_assoc]
      refine readValue_scalar (by rintro _ ⟨⟩) (by rintro _ ⟨⟩) ?_
      rw [readScalar, List.singleton_append, readString_stringChars]
      rfl
  | arr items hitems ih => exact reads_arr hitems ih
  | obj members hkeys hmembers ih => exact reads_obj hkeys hmembers ih

/-- **A value is read again from its text**, on one line or indented. -/
theorem Value.Storable.read_chars (h : v.Storable) (layout : Layout) :
    read (v.chars layout 0) = .ok v := by
  obtain ⟨first, more, hcons, hinked, -⟩ := h.begins layout 0
  have hmark : (v.chars layout 0).head? ≠ some '\uFEFF' := by
    rw [hcons, List.head?_cons]
    exact fun heq => hinked.ne _ (by decide) (Option.some.inj heq)
  -- nothing is open around the value, and nothing comes behind it
  have hskip : skipBlank (v.chars layout 0 ++ []) = _ := skipBlank_chars h
  have hread := h.reads layout 0 [] [] endsNumeral_nil
  rw [List.append_nil] at hskip hread
  rw [read, if_neg hmark, hskip, hread, deliver]
  rfl

/-! ## The characters of a value -/

/-- The text holds no control character, except for the line ends of the layout. -/
def Layout.Spares (layout : Layout) (cs : List Char) : Prop :=
  ∀ c ∈ cs, 0x20 ≤ c.toNat ∨ layout = .indented ∧ c = '\n'

namespace Layout

@[simp] theorem spares_nil : layout.Spares [] := by simp [Spares]

@[simp] theorem spares_cons : layout.Spares (c :: cs) ↔
    (0x20 ≤ c.toNat ∨ layout = .indented ∧ c = '\n') ∧ layout.Spares cs := List.forall_mem_cons

@[simp] theorem spares_append : layout.Spares (cs ++ rest) ↔ layout.Spares cs ∧ layout.Spares rest :=
  List.forall_mem_append

theorem Spares.ne_return (h : layout.Spares cs) : ∀ c ∈ cs, c ≠ '\r' := by
  rintro c hc rfl
  rcases h _ hc with hlow | ⟨-, hbreak⟩
  · exact absurd hlow (by decide)
  · cases hbreak

/-- On one line there is no line end. -/
theorem Spares.unbroken (h : Layout.oneLine.Spares cs) : ∀ c ∈ cs, (c == '\n') = false := by
  intro c hc
  rw [beq_eq_false_iff_ne]
  rintro rfl
  rcases h _ hc with hlow | ⟨hlayout, -⟩
  · exact absurd hlow (by decide)
  · cases hlayout

theorem spares_blanks (h : ∀ c ∈ cs, c = ' ' ∨ layout = .indented ∧ c = '\n') :
    layout.Spares cs := by
  intro c hc
  rcases h c hc with rfl | hbreak
  · exact .inl (by decide)
  · exact .inr hbreak

@[simp] theorem spares_edge : layout.Spares (layout.edge depth) :=
  spares_blanks fun _ => mem_edge

@[simp] theorem spares_between : layout.Spares (layout.between depth) :=
  spares_blanks fun _ => mem_between

theorem spares_hexDigits (width n : Nat) : layout.Spares (Text.hexDigits width n) := by
  have hdigit : ∀ n < 16, 0x20 ≤ (Text.hexDigit n).toNat := by decide
  induction width generalizing n with
  | zero => exact spares_nil
  | succ width ih =>
      simp only [Text.hexDigits, spares_append, spares_cons, spares_nil, and_true]
      exact ⟨ih _, .inl (hdigit _ (Nat.mod_lt n (by decide)))⟩

theorem spares_stringChar (c : Char) : layout.Spares (stringChar c) := by
  unfold stringChar
  split_ifs with hmark hfeed hreturn htab hback hform hcontrol
  · rcases hmark with rfl | rfl <;> simp
  · simp
  · simp
  · simp
  · simp
  · simp
  · simp [spares_hexDigits]
  · simp only [spares_cons, spares_nil, and_true]
    exact .inl (Nat.le_of_not_lt hcontrol)

/-- **Inside a string every control character is escaped.** -/
@[simp] theorem spares_stringChars (s : String) : layout.Spares (stringChars s) := by
  have hall : layout.Spares (s.toList.flatMap stringChar) := by
    intro c hc
    obtain ⟨source, -, hsource⟩ := List.mem_flatMap.mp hc
    exact spares_stringChar source c hsource
  simp [stringChars, hall]

@[simp] theorem spares_intChars (n : Int) : layout.Spares (intChars n) := by
  have hdigits : ∀ n, layout.Spares (Nat.toDigits 10 n) :=
    fun n c hc => .inl (Nat.le_of_lt (inked_of_isDigit (isDigit_of_mem_toDigits hc)).1)
  cases n with
  | ofNat n => exact hdigits n
  | negSucc n => simp [intChars, hdigits]

theorem spares_moreItems {items : List Value}
    (h : ∀ item ∈ items, layout.Spares (item.chars layout depth)) :
    layout.Spares (moreItems layout depth items) := by
  induction items with
  | nil => exact spares_nil
  | cons item items ih =>
      obtain ⟨hitem, hitems⟩ := List.forall_mem_cons.mp h
      simp [moreItems, hitem, ih hitems]

theorem spares_memberChars {member : String × Value}
    (h : layout.Spares (member.2.chars layout depth)) :
    layout.Spares (memberChars layout depth member) := by
  obtain ⟨key, value⟩ := member
  simp [memberChars, h]

theorem spares_moreMembers {members : List (String × Value)}
    (h : ∀ member ∈ members, layout.Spares (member.2.chars layout depth)) :
    layout.Spares (moreMembers layout depth members) := by
  induction members with
  | nil => exact spares_nil
  | cons member members ih =>
      obtain ⟨hmember, hmembers⟩ := List.forall_mem_cons.mp h
      simp [moreMembers, spares_memberChars hmember, ih hmembers]

end Layout

namespace Value.Storable

/-- **The text of a value holds no control characters but the line ends of its layout.** -/
theorem spares (h : v.Storable) (layout : Layout) (depth : Nat) :
    layout.Spares (v.chars layout depth) := by
  induction h generalizing depth with
  | null => simp [Value.chars]
  | bool b => cases b <;> simp [Value.chars]
  | int n _ => simp [Value.chars]
  | str s => simp [Value.chars]
  | arr items _ ih =>
      cases items with
      | nil => simp [Value.chars]
      | cons item items =>
          obtain ⟨hitem, hitems⟩ := List.forall_mem_cons.mp ih
          simp [Value.chars, hitem, Layout.spares_moreItems fun other hother => hitems other hother _]
  | obj members _ _ ih =>
      cases members with
      | nil => simp [Value.chars]
      | cons member members =>
          obtain ⟨hmember, hmembers⟩ := List.forall_mem_cons.mp ih
          simp [Value.chars, Layout.spares_memberChars (hmember _),
            Layout.spares_moreMembers fun other hother => hmembers other hother _]

end Value.Storable

end Flashcards.Json
