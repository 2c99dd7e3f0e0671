import NotebookTree.Proofs.Walk.Record

/-!
# When callbacks answer

What a callback does may be done before it answers or after, and a walk is not to show which. A
`Script` is what callbacks do, whatever the form of their answers; `Walk.timed` makes callbacks of
it that take a form for each call, by the number of the call, and keep an account of the course of
events: when a callback is called, when one that answers later is suspended, and when it is done.

The form of a call makes no difference to a walk, as all that a walk does with an answer is to wait
for it (`timed_alike`). And as it waits before it goes on, nothing comes between the suspension of a
callback and its end, whatever the forms of the others.

## Main definitions

* `Form`: the forms of an answer.
* `Event`, `events`: the account, and what it has to be for some calls.
* `Walk.timed`: the callbacks that a script makes.
* `Walk.TimingInvisible`: a walk in which the forms of answers make no difference.

## Main statements

* `timing_invisible`: forms make no difference to any walk.
-/

namespace NotebookTree

/-- What callbacks do for a node, its index and its parent, and what they answer. -/
abbrev Script (σ : Type) := Item → Option Nat → Option Item → Walk σ Item

/-- The forms of an answer. -/
inductive Form where
  /-- The work is done, and the answer is there. -/
  | atOnce
  /-- The work is suspended before it begins, and done when the answer is waited for. -/
  | later
  /-- The work is done, and the answer has to be waited for all the same. -/
  | wrapped

/-- What happens to callbacks in the course of a walk. -/
inductive Event where
  | called (place : Place)
  | suspended (place : Place)
  /-- The work is done, with an answer or with a fault. -/
  | done (place : Place)

namespace Event

/-- Whether an event is a call. -/
def isCall : Event → Bool
  | called _ => true
  | _ => false

/-- What happens to one callback. -/
def ofCall (form : Form) (place : Place) : List Event :=
  match form with
  | .later => [called place, suspended place, done place]
  | _ => [called place]

/-- What happens in the course of a walk that makes some calls, each of which is over before the
next. -/
def course (form : Nat → Form) (calls : List Place) : List Event :=
  calls.zipIdx.flatMap fun c => ofCall (form c.2) c.1

variable (form : Nat → Form) (calls : List Place)

/-- Each call is one event of a call. -/
theorem countP_ofCall (f : Form) (place : Place) : (ofCall f place).countP isCall = 1 := by
  cases f <;> rfl

/-- One call more adds its events at the end. -/
theorem course_concat (place : Place) :
    course form (calls ++ [place]) = course form calls ++ ofCall (form calls.length) place := by
  simp [course, List.zipIdx_append]

/-- A course of events has the calls for which it was made. -/
theorem countP_course : (course form calls).countP isCall = calls.length := by
  induction calls using List.reverseRecOn with
  | nil => rfl
  | append_singleton calls place ih =>
    rw [course_concat, List.countP_append, ih, countP_ofCall, List.length_append,
      List.length_singleton]

/-- A suspension that is not the first of some events is among the others. -/
theorem exists_of_cons_eq {e : Event} {place : Place} {rest before after : List Event}
    (h : e :: rest = before ++ suspended place :: after) (he : e ≠ suspended place) :
    ∃ before', rest = before' ++ suspended place :: after := by
  cases before with
  | nil => exact absurd (List.cons.inj h).1 he
  | cons b before => exact ⟨before, (List.cons.inj h).2⟩

/-- What follows the suspension of a callback is its end. -/
theorem done_of_suspended {before after : List Event} {place : Place}
    (h : course form calls = before ++ suspended place :: after) :
    ∃ rest, after = done place :: rest := by
  rw [course] at h
  generalize 0 = start at h
  induction calls generalizing start before with
  | nil => simp at h
  | cons p calls ih =>
    rw [List.zipIdx_cons, List.flatMap_cons] at h
    cases hform : form start with
    | atOnce =>
      rw [hform] at h
      obtain ⟨before', hrest⟩ := exists_of_cons_eq h (by simp)
      exact ih _ hrest
    | wrapped =>
      rw [hform] at h
      obtain ⟨before', hrest⟩ := exists_of_cons_eq h (by simp)
      exact ih _ hrest
    | later =>
      rw [hform] at h
      obtain ⟨before', hrest⟩ := exists_of_cons_eq h (by simp)
      -- the suspension is that of the first call, or lies in what follows its end
      cases before' with
      | nil =>
        obtain ⟨hplace, hafter⟩ := List.cons.inj hrest
        obtain rfl := suspended.inj hplace
        exact ⟨_, hafter.symm⟩
      | cons b before' =>
        obtain ⟨before'', hlater⟩ := exists_of_cons_eq (List.cons.inj hrest).2 (by simp)
        exact ih _ hlater

end Event

namespace Scene

variable {σ : Type}

/-- A scene with an account of events. -/
def withEvents (s : Scene σ) (events : List Event) : Scene (σ × List Event) :=
  ⟨s.store, s.log, (s.own, events)⟩

/-- A scene without the account that is kept in it. -/
def withoutEvents (s : Scene (σ × List Event)) : Scene σ := ⟨s.store, s.log, s.own.1⟩

end Scene

namespace Walk

variable {σ α : Type}

/-- Adds an event to the account. -/
def mark (e : Event) : Walk (σ × List Event) Unit :=
  modify fun scene => { scene with own := (scene.own.1, scene.own.2 ++ [e]) }

/-- The answer of a callback that has work to do, in a form. -/
def answerIn (form : Form) (place : Place) (work : Walk (σ × List Event) Item) :
    Walk (σ × List Event) (Reply (σ × List Event)) := do
  match form with
  | .atOnce => return .now (← work)
  | .later => return .later (do
      mark (.suspended place)
      tryFinally work (mark (.done place)))
  | .wrapped =>
    let answer ← work
    return .later (return answer)

/-- The callbacks that a script makes, if the form of each is given by the number of the call. -/
def timed (form : Nat → Form) (script : Script σ) : Callback (σ × List Event) :=
  fun node index parent => do
    let number := (← get).own.2.countP Event.isCall
    mark (.called ⟨node, index, parent⟩)
    answerIn (form number) ⟨node, index, parent⟩ (lifted (script node index parent))

/-- The callbacks of a script, with nothing kept besides and all answers there at once. -/
def plain (script : Script σ) : Callback σ := fun node index parent =>
  return .now (← script node index parent)

/-- Whatever the form of an answer, the same work is done until it is there. -/
theorem outcome_answerIn (form : Form) (place : Place) (w : Walk σ Item) (s : Scene σ)
    (events : List Event) :
    outcome (resolve (answerIn form place (lifted w))) (s.withEvents (events ++ [.called place])) =
      ((outcome w s).1, (outcome w s).2.withEvents (events ++ Event.ofCall form place)) := by
  cases form with
  | atOnce =>
    rw [answerIn, resolve_of_work fun _ => rfl]
    rfl
  | wrapped =>
    rw [answerIn, resolve_of_work fun _ => rfl]
    rfl
  | later =>
    -- the end of the suspension is noted when the work ends, whether it returned or failed
    have hwork : outcome (tryFinally (lifted w) (mark (.done place)))
        (s.withEvents (events ++ [.called place] ++ [.suspended place])) =
          ((outcome w s).1, (outcome w s).2.withEvents
            (events ++ [.called place] ++ [.suspended place] ++ [.done place])) :=
      outcome_tryFinally (lifted w) rfl
    have hevents : events ++ Event.ofCall .later place =
        events ++ [.called place] ++ [.suspended place] ++ [.done place] := by
      simp [Event.ofCall]
    rw [answerIn, resolve_later, hevents]
    exact hwork

/-- What a script does does not hang on the form of the answer, nor does the account on what the
script does. -/
theorem outcome_timed (form : Nat → Form) (script : Script σ) (place : Place)
    (s : Scene (σ × List Event)) :
    outcome (resolve (timed form script place.node place.index place.parent)) s =
      ((callOf (plain script) place s.withoutEvents).answer,
        (callOf (plain script) place s.withoutEvents).after.withEvents
          (s.own.2 ++ Event.ofCall (form (s.own.2.countP Event.isCall)) place)) := by
  rw [callOf, plain, resolve_of_work fun _ => rfl]
  exact outcome_answerIn (form (s.own.2.countP Event.isCall)) place _ s.withoutEvents s.own.2

/-! ## Walks with timed callbacks -/

/-- Calls noted with what they came to, beside the account of what has happened. -/
def Accounts (form : Nat → Form) (kept : σ × List (Call σ)) (kept' : σ × List Event) : Prop :=
  kept' = (kept.1, Event.course form (kept.2.map Call.place))

/-- A timed callback keeps an account of the calls that the callback makes without it. -/
theorem timed_alike (form : Nat → Form) (script : Script σ) :
    AlikeCallbacks (Accounts form) (recorded (plain script)) (timed form script) := by
  intro node index parent s t hst
  have ht : t = s.withoutCalls.withEvents (Event.course form (s.own.2.map Call.place)) := by
    obtain ⟨store, log, own⟩ := t
    obtain ⟨rfl, rfl, rfl⟩ := hst
    rfl
  let c := callOf (plain script) ⟨node, index, parent⟩ s.withoutCalls
  -- one more call makes the course longer by the events of that call; its form is the one for the
  -- number of calls before it
  have hcourse : Event.course form ((s.own.2 ++ [c]).map Call.place) =
      Event.course form (s.own.2.map Call.place) ++
        Event.ofCall (form ((Event.course form (s.own.2.map Call.place)).countP Event.isCall))
          c.place := by
    rw [List.map_append, List.map_singleton, Event.course_concat, Event.countP_course]
  have htimed := outcome_timed form script ⟨node, index, parent⟩ t
  rw [ht] at htimed ⊢
  rw [outcome_recorded]
  refine ⟨congrArg Prod.fst htimed, ?_⟩
  rw [show outcome (resolve (timed form script node index parent)) _ = _ from htimed]
  exact ⟨rfl, rfl, congrArg (Prod.mk c.after.own) hcourse.symm⟩

/-- A walk in which the forms of answers make no difference: whatever the script, it comes to the
same result, leaves the same scene and makes the same calls, and what happens in its course is that
one call is over before the next. -/
def TimingInvisible (walk : Callback (σ × List Event) → Walk (σ × List Event) α) : Prop :=
  ∀ (script : Script σ) (s : Scene σ), ∃ (r : Except Fault α) (last : Scene σ) (calls : List Place),
    ∀ form, outcome (walk (timed form script)) (s.withEvents []) =
      (r, last.withEvents (Event.course form calls))

/-- Forms make no difference to a walk that is alike with alike callbacks. -/
theorem timingInvisible_of_alike {walk : {κ : Type} → Callback κ → Walk κ α}
    (h : ∀ {κ μ : Type} {R : κ → μ → Prop} {c : Callback κ} {d : Callback μ},
      AlikeCallbacks R c d → Alike R (walk c) (walk d)) :
    TimingInvisible (σ := σ) (fun c => walk c) := by
  intro script s
  rcases hrun : outcome (walk (recorded (plain script))) (s.withCalls []) with ⟨r, last⟩
  refine ⟨r, last.withoutCalls, last.own.2.map Call.place, fun form => ?_⟩
  obtain ⟨hr, hs⟩ := h (timed_alike form script) (s.withCalls []) (s.withEvents [])
    ⟨rfl, rfl, rfl⟩
  rw [hrun] at hr hs
  refine Prod.ext hr ?_
  obtain ⟨hstore, hlog, hown⟩ := hs
  rcases hlast : (outcome (walk (timed form script)) (s.withEvents [])).2 with ⟨store, log, own⟩
  rw [hlast] at hstore hlog hown
  obtain rfl := hstore
  obtain rfl := hlog
  obtain rfl := hown
  rfl

/-- Whether callbacks answer at once, are suspended first, or wrap what they answer, and whether all
of them do or some, makes no difference to any walk. Whatever the script, and whatever it does to
the tree, the calls are the same, and so are the result or fault and the scene that is left; and
nothing comes between the suspension of a callback and its end. -/
theorem timing_invisible (limit most : Nat) (tree : Item) (type : Value) (reverse : Bool) :
    TimingInvisible (σ := σ) (fun c => visit limit tree c reverse) ∧
    TimingInvisible (σ := σ) (fun c => visitType limit tree type c reverse) ∧
    TimingInvisible (σ := σ) (fun c => transform limit tree c reverse) ∧
    TimingInvisible (σ := σ) (fun c => transformType limit tree type c reverse) ∧
    TimingInvisible (σ := σ) (fun c => map limit tree c) ∧
    TimingInvisible (σ := σ) (fun c => filter limit most tree c) ∧
    TimingInvisible (σ := σ) (fun c => find limit tree fun node => c node none none) ∧
    TimingInvisible (σ := σ) (fun c => findAll limit tree fun node => c node none none) ∧
    ∀ form calls before after place,
      Event.course form calls = before ++ .suspended place :: after →
      ∃ rest, after = .done place :: rest := by
  -- each walk is alike for callbacks that are, whatever it is
  refine ⟨?_, ?_, ?_, ?_, ?_, ?_, ?_, ?_, fun form calls _ _ _ =>
    Event.done_of_suspended form calls⟩
  · exact timingInvisible_of_alike fun h => visit_alike h limit tree reverse
  · exact timingInvisible_of_alike fun h => visit_alike (onlyType_alike h type) limit tree reverse
  · exact timingInvisible_of_alike fun h => transform_alike h limit tree reverse
  · exact timingInvisible_of_alike fun h =>
      transform_alike (onlyType_alike h type) limit tree reverse
  · exact timingInvisible_of_alike fun h => transform_alike h limit tree false
  · exact timingInvisible_of_alike fun h => filter_alike h limit most tree
  · exact timingInvisible_of_alike fun h => find_alike (fun node => h node none none) limit tree
  · exact timingInvisible_of_alike fun h => findAll_alike (fun node => h node none none) limit tree

end Walk

end NotebookTree
