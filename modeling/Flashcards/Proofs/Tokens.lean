import Flashcards.Proofs.Scan
import Mathlib.Data.List.Chain

/-!
# Rows of tokens

Cutting a template loses nothing, and there is one way to do it. The rows of tokens that a template
can be cut into are told without the scan: each token has its own shape, text stands between tags
and keeps clear of their braces, and each token begins where those in front of it end (`Row`). Such
a row is what its own text is cut into, and nothing else is ever cut.

A row in front of more text is cut as it would be by itself as long as the two keep apart where they
meet (`scanFrom_sources`). With nothing behind the row this is one half of the equivalence; with a
tag behind it that is never closed it is what is known of a scan that breaks off.
-/

namespace Flashcards.Template

open Text

/-- What tokens were cut from, one behind the other. -/
def sources (tokens : List Token) : List Char := tokens.flatMap Token.source

def Token.isText : Token → Bool
  | .text _ _ => true
  | .tag _ _ => false

/-- What a token can hold: a text something without an opening pair, and a tag anything that leaves
the two braces behind it to be the first closing pair. -/
def Token.Shaped : Token → Prop
  | .text literal _ => literal ≠ [] ∧ NoPair '{' literal
  | .tag body _ => NoPair '}' body ∧ body.getLast? ≠ some '}'

/-- What can stand right behind a token: behind a text a tag, if the text does not end in a brace
that would open the tag too early, and behind a tag anything. -/
def Token.Meets : Token → Token → Prop
  | .text literal _, next => next.isText = false ∧ literal.getLast? ≠ some '{'
  | .tag _ _, _ => True

/-- Tokens that are cut from some text, where it begins at the offset `start`. -/
structure Row (start : Nat) (tokens : List Token) : Prop where
  shaped : ∀ token ∈ tokens, token.Shaped
  apart : tokens.IsChain Token.Meets
  /-- Each token begins where those in front of it end. -/
  placed : ∀ before token after, tokens = before ++ token :: after →
    token.position = start + (sources before).length

/-- The row keeps clear of the text behind it: a text at its end is followed by nothing, or by a tag
that it does not run into. -/
def Clear (tokens : List Token) (tail : List Char) : Prop :=
  ∀ literal position, tokens.getLast? = some (.text literal position) →
    tail = [] ∨ literal.getLast? ≠ some '{' ∧ ∃ rest, tail = '{' :: '{' :: rest

/-! ## One token and the row behind it -/

section

variable {start position : Nat} {literal tail : List Char} {token : Token}
  {tokens rest : List Token}

theorem sources_nil : sources [] = [] := rfl

theorem sources_cons (token : Token) (rest : List Token) :
    sources (token :: rest) = token.source ++ sources rest := List.flatMap_cons

theorem sources_append (front rest : List Token) :
    sources (front ++ rest) = sources front ++ sources rest := List.flatMap_append

theorem row_nil (start : Nat) : Row start [] where
  shaped := by simp
  apart := .nil
  placed := by simp

theorem row_cons_iff :
    Row start (token :: rest) ↔
      token.Shaped ∧ token.position = start ∧ (∀ next ∈ rest.head?, token.Meets next) ∧
        Row (start + token.source.length) rest := by
  constructor
  · rintro ⟨hshaped, hapart, hplaced⟩
    obtain ⟨hfirst, hrest⟩ := List.forall_mem_cons.mp hshaped
    obtain ⟨hmeets, hchain⟩ := List.isChain_cons.mp hapart
    refine ⟨hfirst, hplaced [] token rest rfl, hmeets, hrest, hchain, ?_⟩
    intro before other after heq
    have hother := hplaced (token :: before) other after (congrArg (token :: ·) heq)
    rw [hother, sources_cons, List.length_append, Nat.add_assoc]
  · rintro ⟨hfirst, hposition, hmeets, hrest, hchain, hplaced⟩
    refine ⟨List.forall_mem_cons.mpr ⟨hfirst, hrest⟩, List.isChain_cons.mpr ⟨hmeets, hchain⟩, ?_⟩
    intro before other after heq
    cases before with
    | nil =>
        obtain rfl : token = other := (List.cons.inj heq).1
        exact hposition
    | cons first before =>
        obtain ⟨rfl, hmore⟩ := List.cons.inj heq
        rw [hplaced before other after hmore, sources_cons, List.length_append, Nat.add_assoc]

theorem Clear.of_cons (h : Clear (token :: rest) tail) : Clear rest tail := by
  intro literal position hlast
  refine h literal position ?_
  rw [List.getLast?_cons, hlast]
  rfl

theorem clear_nil (tokens : List Token) : Clear tokens [] := fun _ _ _ => .inl rfl

/-- Behind a text of a row comes nothing, or a tag that the text does not run into. -/
theorem clear_behind_text (hmeets : ∀ next ∈ rest.head?, (Token.text literal position).Meets next)
    (hclear : Clear (.text literal position :: rest) tail) :
    sources rest ++ tail = [] ∨
      literal.getLast? ≠ some '{' ∧ ∃ more, sources rest ++ tail = '{' :: '{' :: more := by
  cases rest with
  | nil => exact hclear literal position rfl
  | cons next rest =>
      obtain ⟨htag, hlast⟩ := hmeets next rfl
      cases next with
      | text other place => cases htag
      | tag body place =>
          refine .inr ⟨hlast, body ++ ['}', '}'] ++ sources rest ++ tail, ?_⟩
          rw [sources_cons]
          rfl

/-! ## Rows are cut as they are -/

/-- A text is cut off where it ends, if nothing stands behind it or a tag that it keeps clear of. -/
theorem scanFrom_literal {behind : List Char} (hshaped : (Token.text literal position).Shaped)
    (hbehind : behind = [] ∨
      literal.getLast? ≠ some '{' ∧ ∃ more, behind = '{' :: '{' :: more) :
    scanFrom position (literal ++ behind) =
      ⟨.text literal position :: (scanFrom (position + literal.length) behind).tokens,
        (scanFrom (position + literal.length) behind).stopped⟩ := by
  obtain ⟨hne, hpair⟩ := hshaped
  rcases hbehind with rfl | ⟨hlast, more, rfl⟩
  · rw [List.append_nil, scanFrom_plain hpair, scanFrom_plain (noPair_nil _),
      leadingText_of_ne_nil hne]
    rfl
  · exact scanFrom_text hne (noPair_append_mark.mpr ⟨hpair, hlast⟩) position more

theorem source_tag_append (body : List Char) (position : Nat) (behind : List Char) :
    (Token.tag body position).source ++ behind = '{' :: '{' :: (body ++ '}' :: '}' :: behind) := by
  simp [Token.source]

theorem length_source_tag (body : List Char) (position : Nat) :
    (Token.tag body position).source.length = body.length + 4 := by simp [Token.source]

/-- A tag is cut off where its braces close. -/
theorem scanFrom_source_tag {body : List Char} (hshaped : (Token.tag body position).Shaped)
    (behind : List Char) :
    scanFrom position ((Token.tag body position).source ++ behind) =
      ⟨.tag body position ::
          (scanFrom (position + (Token.tag body position).source.length) behind).tokens,
        (scanFrom (position + (Token.tag body position).source.length) behind).stopped⟩ := by
  rw [source_tag_append, length_source_tag, scanFrom_tag (noPair_append_mark.mpr hshaped),
    Nat.add_assoc]

/-- **A row is what its text is cut into**, and the text behind it is cut as it would be alone. -/
theorem scanFrom_sources (hrow : Row start tokens) (hclear : Clear tokens tail) :
    scanFrom start (sources tokens ++ tail) =
      ⟨tokens ++ (scanFrom (start + (sources tokens).length) tail).tokens,
        (scanFrom (start + (sources tokens).length) tail).stopped⟩ := by
  induction tokens generalizing start with
  | nil => rfl
  | cons token rest ih =>
      obtain ⟨hshaped, rfl, hmeets, hrest⟩ := row_cons_iff.mp hrow
      have hmore := ih hrest hclear.of_cons
      rw [Nat.add_assoc, ← List.length_append, ← sources_cons] at hmore
      rw [sources_cons, List.append_assoc, ← sources_cons]
      -- the first token is cut off, and the induction is about what is left
      cases token with
      | text literal position =>
          refine (scanFrom_literal hshaped (clear_behind_text hmeets hclear)).trans ?_
          exact congrArg (fun found : Scan =>
            Scan.mk (.text literal position :: found.tokens) found.stopped) hmore
      | tag body position =>
          refine (scanFrom_source_tag hshaped (sources rest ++ tail)).trans ?_
          exact congrArg (fun found : Scan =>
            Scan.mk (.tag body position :: found.tokens) found.stopped) hmore

/-! ## What is cut is a row -/

/-- The tokens are cut off a text and make a row, and `tail` is left over: nothing where the scan
finishes, and otherwise the tag that is never closed, which begins where the scan says. -/
structure Cuts (start : Nat) (cs : List Char) (found : Scan) (tail : List Char) : Prop where
  row : Row start found.tokens
  whole : cs = sources found.tokens ++ tail
  clear : Clear found.tokens tail
  finished : found.stopped = none → tail = []
  broken : ∀ position, found.stopped = some position →
    position = start + (sources found.tokens).length ∧
      ∃ rest, tail = '{' :: '{' :: rest ∧ NoPair '}' rest

variable {cs behind : List Char} {found : Scan}

/-- A token goes in front of a scan if it keeps clear of what was found first, or, where nothing
was found, of what is left over. -/
theorem Cuts.cons (first : Token)
    (h : Cuts (first.position + first.source.length) behind found tail)
    (hshaped : first.Shaped) (hmeets : ∀ next ∈ found.tokens.head?, first.Meets next)
    (hclear : found.tokens = [] → Clear [first] tail) :
    Cuts first.position (first.source ++ behind) ⟨first :: found.tokens, found.stopped⟩ tail where
  row := row_cons_iff.mpr ⟨hshaped, rfl, hmeets, h.row⟩
  whole := by rw [sources_cons, List.append_assoc, ← h.whole]
  clear := by
    cases htokens : found.tokens with
    | nil => exact hclear htokens
    | cons next rest =>
        have hrest := h.clear
        rw [htokens] at hrest
        exact hrest
  finished := h.finished
  broken := by
    intro position hstop
    obtain ⟨hposition, hrest⟩ := h.broken position hstop
    rw [sources_cons, List.length_append, ← Nat.add_assoc]
    exact ⟨hposition, hrest⟩

/-- The text in front of a tag goes in front of a scan, if there is any. -/
theorem Cuts.leadingText (h : Cuts (start + literal.length) behind found tail)
    (hpair : NoPair '{' literal)
    (hmeets : ∀ next ∈ found.tokens.head?, (Token.text literal start).Meets next)
    (hclear : found.tokens = [] → Clear [.text literal start] tail) :
    Cuts start (literal ++ behind) ⟨leadingText literal start ++ found.tokens, found.stopped⟩
      tail := by
  by_cases hne : literal = []
  · subst hne
    exact h
  · rw [leadingText_of_ne_nil hne]
    exact Cuts.cons (.text literal start) h ⟨hne, hpair⟩ hmeets hclear

theorem cuts_nil (start : Nat) : Cuts start [] ⟨[], none⟩ [] where
  row := row_nil start
  whole := rfl
  clear := clear_nil []
  finished := fun _ => rfl
  broken := by simp

/-- A tag that is never closed is left over. -/
theorem cuts_openTag (hpair : NoPair '}' cs) (start : Nat) :
    Cuts start ('{' :: '{' :: cs) ⟨[], some start⟩ ('{' :: '{' :: cs) where
  row := row_nil start
  whole := rfl
  clear := by simp [Clear]
  finished := by simp
  broken := by
    rintro position ⟨⟩
    exact ⟨rfl, cs, rfl, hpair⟩

/-- **A scan cuts a row off a text, and leaves over no more than a tag that is never closed.** -/
theorem cuts_scanFrom (start : Nat) (cs : List Char) :
    ∃ tail, Cuts start cs (scanFrom start cs) tail := by
  fun_induction scanFrom start cs with
  | case1 start cs hopen =>
      have hplain := (cuts_nil (start + cs.length)).leadingText (cutAtPair_eq_none_iff.mp hopen)
        (by simp) (fun _ => clear_nil _)
      rw [List.append_nil, List.append_nil] at hplain
      exact ⟨_, hplain⟩
  | case2 start cs before rest hopen begins hclose =>
      obtain ⟨rfl, hfront⟩ := cutAtPair_eq_some_iff.mp hopen
      obtain ⟨hpair, hlast⟩ := noPair_append_mark.mp hfront
      have hbroken := (cuts_openTag (cutAtPair_eq_none_iff.mp hclose) begins).leadingText hpair
        (by simp) (by rintro - literal position ⟨⟩; exact .inr ⟨hlast, rest, rfl⟩)
      rw [List.append_nil] at hbroken
      exact ⟨_, hbroken⟩
  | case3 start cs before rest hopen begins body behind hclose more ih =>
      obtain ⟨rfl, hfront⟩ := cutAtPair_eq_some_iff.mp hopen
      obtain ⟨rfl, hbody⟩ := cutAtPair_eq_some_iff.mp hclose
      obtain ⟨hpair, hlast⟩ := noPair_append_mark.mp hfront
      obtain ⟨tail, hbehind⟩ := ih
      have hmore : Cuts (begins + (Token.tag body begins).source.length) behind more tail := by
        rw [length_source_tag, ← Nat.add_assoc]
        exact hbehind
      have htag := Cuts.cons (.tag body begins) hmore (noPair_append_mark.mp hbody)
        (fun _ _ => trivial) (by rintro - literal position ⟨⟩)
      rw [source_tag_append] at htag
      exact ⟨tail, htag.leadingText hpair (by rintro next ⟨⟩; exact ⟨rfl, hlast⟩) (by simp)⟩

/-! ## The tokens of a template -/

/-- A scan finishes exactly with the row that has the template for its text. -/
theorem scan_eq_row_iff {template : String} {tokens : List Token} :
    scan template = ⟨tokens, none⟩ ↔ Row 0 tokens ∧ sources tokens = template.toList := by
  constructor
  · intro h
    obtain ⟨tail, hcuts⟩ := cuts_scanFrom 0 template.toList
    rw [show scanFrom 0 template.toList = ⟨tokens, none⟩ from h] at hcuts
    refine ⟨hcuts.row, ?_⟩
    rw [hcuts.whole, hcuts.finished rfl, List.append_nil]
  · rintro ⟨hrow, hsources⟩
    have hscan := scanFrom_sources hrow (clear_nil tokens)
    rw [List.append_nil, hsources, scanFrom_plain (noPair_nil _)] at hscan
    rw [scan, hscan]
    exact congrArg (Scan.mk · none) (List.append_nil tokens)

/-- A scan breaks off behind the tokens of a row, at a pair of braces that the last of them does not
run into and that no closing pair comes behind. -/
theorem scan_eq_open_iff {template : String} {tokens : List Token} {position : Nat} :
    scan template = ⟨tokens, some position⟩ ↔
      Row 0 tokens ∧ (sources tokens).length = position ∧
        (∀ literal place, tokens.getLast? = some (.text literal place) →
          literal.getLast? ≠ some '{') ∧
        ∃ rest, template.toList = sources tokens ++ '{' :: '{' :: rest ∧ NoPair '}' rest := by
  constructor
  · intro h
    obtain ⟨tail, hcuts⟩ := cuts_scanFrom 0 template.toList
    rw [show scanFrom 0 template.toList = ⟨tokens, some position⟩ from h] at hcuts
    obtain ⟨hposition, rest, rfl, hpair⟩ := hcuts.broken position rfl
    refine ⟨hcuts.row, (hposition.trans (Nat.zero_add _)).symm, ?_, rest, hcuts.whole, hpair⟩
    intro literal place hlast
    rcases hcuts.clear literal place hlast with htail | ⟨hclear, -⟩
    · cases htail
    · exact hclear
  · rintro ⟨hrow, hlength, hlast, rest, hwhole, hpair⟩
    have hclear : Clear tokens ('{' :: '{' :: rest) :=
      fun literal place h => .inr ⟨hlast literal place h, rest, rfl⟩
    have hopen : cutAtPair '{' ('{' :: '{' :: rest) = some ([], rest) := rfl
    rw [scan, hwhole, scanFrom_sources hrow hclear,
      scanFrom_of_open hopen (cutAtPair_eq_none_iff.mpr hpair), hlength]
    simp [Template.leadingText]

/--
**Cutting a template loses nothing, and there is one way to do it.**

A scan finishes with the tokens of the one row that is written as the template. It breaks off at an
offset if and only if the text in front of it is cut into the tokens that were found, the last of
them does not run into the pair of braces that stands there, and no closing pair comes behind that.
-/
theorem scan_iff_row (template : String) (tokens : List Token) (position : Nat) :
    (scan template = ⟨tokens, none⟩ ↔ Row 0 tokens ∧ sources tokens = template.toList) ∧
      (scan template = ⟨tokens, some position⟩ ↔
        scan (String.ofList (template.toList.take position)) = ⟨tokens, none⟩ ∧
          (∀ literal place, tokens.getLast? = some (.text literal place) →
            literal.getLast? ≠ some '{') ∧
          ∃ rest, template.toList.drop position = '{' :: '{' :: rest ∧ NoPair '}' rest) := by
  refine ⟨scan_eq_row_iff, ?_⟩
  rw [scan_eq_row_iff, String.toList_ofList, scan_eq_open_iff]
  constructor
  · rintro ⟨hrow, rfl, hlast, rest, hwhole, hpair⟩
    refine ⟨⟨hrow, ?_⟩, hlast, rest, ?_, hpair⟩
    · rw [hwhole, List.take_left]
    · rw [hwhole, List.drop_left]
  · rintro ⟨⟨hrow, hsources⟩, hlast, rest, hdrop, hpair⟩
    have hinside : position < template.toList.length := by
      have hlength := congrArg List.length hdrop
      simp only [List.length_drop, List.length_cons] at hlength
      omega
    refine ⟨hrow, ?_, hlast, rest, ?_, hpair⟩
    · rw [hsources, List.length_take, Nat.min_eq_left hinside.le]
    · rw [hsources, ← hdrop, List.take_append_drop]

/-- Three braces on either side: the first pair opens the tag, and the first pair closes it. -/
example : scan "\x7b\x7b\x7ba\x7d\x7d\x7d" = ⟨[.tag ['{', 'a'] 0, .text ['}'] 6], none⟩ := by cbv

end

end Flashcards.Template
