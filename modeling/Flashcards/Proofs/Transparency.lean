import Flashcards.Proofs.Lookup
import Flashcards.Renderer

/-!
# The cache cannot be seen

A computation that uses a renderer may leave other templates in its cache, and it may do so even
when it fails. What it gives must not depend on that. A computation is `Transparent` if its outcome
over a renderer with any cache is the one over a renderer that keeps nothing, and if it hands a
cache on that can be trusted as much as the one it was given.

Whatever is put together from transparent computations is transparent (`Transparent.bind`), so only
reading a template has to be looked at. What a renderer answers to any sequence of calls then
follows by induction on the calls.
-/

namespace Flashcards

open Template

namespace Renderer

/-- The cache of a renderer, if it has one, can be trusted. -/
def Sound (renderer : Renderer) : Prop := ∀ cache, renderer.cache = some cache → cache.Inv

theorem sound_uncached (policy : Policy) : (uncached policy).Sound := by
  intro cache h
  cases h

theorem sound_empty (policy : Policy) (capacity : Nat) :
    Sound ⟨policy, some (Cache.empty capacity)⟩ := by
  intro cache hcache
  rw [← Option.some.inj hcache]
  exact Cache.inv_empty capacity

theorem sound_clear (renderer : Renderer) : renderer.clear.Sound := by
  intro cache h
  obtain ⟨before, -, rfl⟩ := Option.map_eq_some_iff.mp h
  exact Cache.inv_clear before

/-- A template is read as it would be without a cache, and the renderer can still be trusted. -/
theorem Sound.parseCached {renderer : Renderer} (h : renderer.Sound) (template : String) :
    ∃ after, renderer.parseCached template = (parse renderer.policy template, after) ∧
      after.Sound ∧ after.policy = renderer.policy := by
  obtain ⟨policy, kept⟩ := renderer
  cases kept with
  | none => exact ⟨_, rfl, h, rfl⟩
  | some cache =>
      have hinv := h cache rfl
      refine ⟨⟨policy, some (cache.get ⟨template, policy⟩).2⟩, ?_, ?_, rfl⟩
      · rw [← Cache.get_outcome hinv ⟨template, policy⟩]
        rfl
      · intro later hlater
        rw [← Option.some.inj hlater]
        exact Cache.inv_get hinv _

end Renderer

namespace Rendering

variable {α β : Type}

/-! ## Outcomes step by step -/

theorem outcome_bind_ok {first : Rendering α} {renderer after : Renderer} {x : α}
    (h : first.outcome renderer = (.ok x, after)) (rest : α → Rendering β) :
    (first >>= rest).outcome renderer = (rest x).outcome after := by
  simp only [outcome, ExceptT.run_bind, StateT.run_bind] at h ⊢
  rw [h]
  rfl

theorem outcome_bind_error {first : Rendering α} {renderer after : Renderer} {failure : Failure}
    (h : first.outcome renderer = (.error failure, after)) (rest : α → Rendering β) :
    (first >>= rest).outcome renderer = (.error failure, after) := by
  simp only [outcome, ExceptT.run_bind, StateT.run_bind] at h ⊢
  rw [h]
  rfl

/-! ## Transparent computations -/

/-- Over a sound renderer a computation gives what it gives over one that keeps nothing. It leaves
the renderer sound, with the same policy, and the one that keeps nothing as it is. -/
def Transparent (rendering : Rendering α) : Prop :=
  ∀ renderer : Renderer, renderer.Sound → ∃ outcome after,
    rendering.outcome renderer = (outcome, after) ∧ after.Sound ∧
    after.policy = renderer.policy ∧
    rendering.outcome (.uncached renderer.policy) = (outcome, .uncached renderer.policy)

theorem transparent_pure (x : α) : Transparent (pure x : Rendering α) := by
  intro renderer hsound
  exact ⟨.ok x, renderer, rfl, hsound, rfl, rfl⟩

theorem transparent_throw (failure : Failure) : Transparent (throw failure : Rendering α) := by
  intro renderer hsound
  exact ⟨.error failure, renderer, rfl, hsound, rfl, rfl⟩

/-- **One after the other, transparent computations are transparent.** -/
theorem Transparent.bind {first : Rendering α} {rest : α → Rendering β}
    (hfirst : Transparent first) (hrest : ∀ x, Transparent (rest x)) :
    Transparent (first >>= rest) := by
  intro renderer hsound
  obtain ⟨outcome, after, hrun, hafter, hpolicy, hplain⟩ := hfirst renderer hsound
  cases outcome with
  | error failure =>
      exact ⟨.error failure, after, outcome_bind_error hrun rest, hafter, hpolicy,
        outcome_bind_error hplain rest⟩
  | ok x =>
      -- The second one starts from what the first one left, on both sides.
      obtain ⟨outcome, last, hrun', hlast, hpolicy', hplain'⟩ := hrest x after hafter
      rw [hpolicy] at hplain'
      refine ⟨outcome, last, ?_, hlast, hpolicy'.trans hpolicy, ?_⟩
      · rw [outcome_bind_ok hrun, hrun']
      · rw [outcome_bind_ok hplain, hplain']

theorem Transparent.map {first : Rendering α} (h : Transparent first) (f : α → β) :
    Transparent (f <$> first) := by
  rw [map_eq_pure_bind]
  exact h.bind fun x => transparent_pure (f x)

theorem outcome_parseFace (face : Option Face) (template : String) (renderer : Renderer) :
    (parseFace face template).outcome renderer
      = ((renderer.parseCached template).1.mapError (.template face),
        (renderer.parseCached template).2) := by
  have hget : (get : Rendering Renderer).outcome renderer = (.ok renderer, renderer) := rfl
  rw [parseFace, outcome_bind_ok hget]
  rcases renderer.parseCached template with ⟨outcome, after⟩
  cases outcome with
  | ok nodes => rfl
  | error error => rfl

/-- Reading a template is where the cache is used. -/
theorem transparent_parseFace (face : Option Face) (template : String) :
    Transparent (parseFace face template) := by
  intro renderer hsound
  obtain ⟨after, hrun, hafter, hpolicy⟩ := hsound.parseCached template
  refine ⟨(parse renderer.policy template).mapError (.template face), after, ?_, hafter,
    hpolicy, ?_⟩
  · rw [outcome_parseFace, hrun]
  · rw [outcome_parseFace]
    rfl

theorem transparent_evaluate (nodes : Nodes) (context : Context) :
    Transparent (evaluate nodes context) := by
  unfold evaluate
  split
  · exact transparent_pure _
  · exact transparent_throw _

theorem transparent_renderSide (template : String) (fields : Fields) (ordinal : Int)
    (side : Side) : Transparent (renderSide template fields ordinal side) :=
  (transparent_parseFace none template).bind fun nodes => transparent_evaluate nodes _

theorem transparent_renderCard (front back : String) (fields : Fields) (ordinal : Int) :
    Transparent (renderCard front back fields ordinal) := by
  unfold renderCard
  split
  · exact transparent_throw (.negativeOrdinal ordinal)
  · refine (transparent_parseFace _ front).bind fun frontNodes => ?_
    refine (transparent_parseFace _ back).bind fun backNodes => ?_
    refine (transparent_evaluate frontNodes _).bind fun question => ?_
    refine (transparent_evaluate backNodes _).bind fun answer => ?_
    exact transparent_pure _

/-- Dropping what is kept cannot be seen either. -/
theorem transparent_clear : Transparent (modify Renderer.clear) := by
  intro renderer _
  exact ⟨.ok (), renderer.clear, rfl, renderer.sound_clear, rfl, rfl⟩

end Rendering

/-! ## Sequences of calls -/

namespace Renderer

/-- What a renderer can be asked for. -/
inductive Call
  /-- The tree of a template. -/
  | parse (template : String)
  | renderSide (template : String) (fields : Fields) (ordinal : Int) (side : Side)
  | renderCard (front back : String) (fields : Fields) (ordinal : Int)
  /-- To drop the templates that are kept. -/
  | clear

/-- What a renderer gives. -/
inductive Reply
  | nodes (nodes : Nodes)
  | text (text : String)
  | sides (rendered : Rendered)
  | done

/-- What is done for a call. -/
def Call.rendering : Call → Rendering Reply
  | .parse template => Reply.nodes <$> Rendering.parseFace none template
  | .renderSide template fields ordinal side =>
    Reply.text <$> Rendering.renderSide template fields ordinal side
  | .renderCard front back fields ordinal =>
    Reply.sides <$> Rendering.renderCard front back fields ordinal
  | .clear => (fun _ => Reply.done) <$> (modify Renderer.clear : Rendering Unit)

/-- The outcomes of calls that are made one after the other. -/
def replies (renderer : Renderer) : List Call → List (Except Failure Reply)
  | [] => []
  | call :: later =>
    (call.rendering.outcome renderer).1 :: replies (call.rendering.outcome renderer).2 later

theorem Call.transparent (call : Call) : call.rendering.Transparent := by
  cases call with
  | parse template => exact (Rendering.transparent_parseFace none template).map _
  | renderSide template fields ordinal side =>
      exact (Rendering.transparent_renderSide template fields ordinal side).map _
  | renderCard front back fields ordinal =>
      exact (Rendering.transparent_renderCard front back fields ordinal).map _
  | clear => exact Rendering.transparent_clear.map _

/-- From a renderer that can be trusted, each call gives what it gives by itself. -/
theorem Sound.replies_eq {renderer : Renderer} (h : renderer.Sound) (calls : List Call) :
    renderer.replies calls
      = calls.map fun call => (call.rendering.outcome (uncached renderer.policy)).1 := by
  induction calls generalizing renderer with
  | nil => rfl
  | cons call later ih =>
      obtain ⟨outcome, after, hrun, hafter, hpolicy, hplain⟩ := call.transparent renderer h
      rw [replies, List.map_cons, hrun, hplain, ih hafter, hpolicy]

/--
**The cache cannot be seen.**

Whatever a renderer with a cache of any size is asked for, in any order, and whether or not its
templates can be read, each call gives what it gives by itself over a renderer that keeps nothing.
-/
theorem replies_cached (capacity : Nat) (policy : Policy) (calls : List Call) :
    replies ⟨policy, some (Cache.empty capacity)⟩ calls
      = calls.map fun call => (call.rendering.outcome (uncached policy)).1 :=
  (sound_empty policy capacity).replies_eq calls

end Renderer

end Flashcards
