import NotebookTree.Proofs.Walk.Visit

/-!
# Searches

Searches, and visits of one type, are visits whose callbacks ask another callback before they
answer. Which calls the other callback gets is read off the calls of the visit, one by one: a search
asks once for each (`asked`), a visit of one type only where the type is the right one (`called`).
That these are the calls which the other callback notes holds whatever the callbacks do
(`notes_of_visit`), so what is known of the calls noted may be used to say what the visit does.

Two searches that begin in the same scene make the same calls as long as both go on
(`prefix_of_chained`). So a search for the first node is a search for all of them that ends early.

## Main definitions

* `Walk.asking`, `Walk.recordedQuestion`: a question as a callback, and one that notes its calls.
* `Walk.searching`: the callback with which a search visits.

## Main statements

* `findAll_searches`, `find_searches`: the questions of a search, and what it finds.
* `visitType_calls`: the calls of a visit of one type.
* `searches_follow_visit`: all of them beside a visit that is not stopped.
-/

namespace NotebookTree

variable {σ τ : Type}

/-! ## Calls made for other calls -/

/-- If each call makes at most one other, for a place that depends on its own, and the other ends
its walk when the first does, the others are made for their places in order as the first are. -/
theorem CutAt.filterMap {ends : Call τ → Prop} {ends' : Call σ → Prop} {places : List Place}
    {calls : List (Call τ)} (h : CutAt ends places calls) (made : Call τ → Option (Call σ))
    (f : Place → Option Place) (hplace : ∀ d ∈ calls, (made d).map Call.place = f d.place)
    (hends : ∀ d ∈ calls, ends d ↔ ∃ c, made d = some c ∧ ends' c) :
    CutAt ends' (places.filterMap f) (calls.filterMap made) := by
  have hmap : (calls.filterMap made).map Call.place = (calls.map Call.place).filterMap f := by
    rw [List.map_filterMap, List.filterMap_map]
    exact List.filterMap_congr hplace
  refine ⟨hmap ▸ h.made.filterMap f, fun c hc hend => ?_, fun hall => ?_⟩
  · -- only the last call may end the run, and it is the last again when it makes one
    rcases List.eq_nil_or_concat calls with rfl | ⟨init, last, rfl⟩
    · cases hc
    rw [List.concat_eq_append] at h hends hc
    have hinit : c ∈ init.filterMap made := by
      rw [List.filterMap_append] at hc
      cases hlast : made last with
      | none =>
        rw [List.filterMap_cons_none hlast, List.filterMap_nil, List.append_nil] at hc
        exact List.mem_of_mem_dropLast hc
      | some d =>
        rwa [List.filterMap_cons_some hlast, List.filterMap_nil, List.dropLast_concat] at hc
    obtain ⟨d, hd, hdc⟩ := List.mem_filterMap.mp hinit
    refine h.running d (by rwa [List.dropLast_concat]) ?_
    exact (hends d (List.mem_append_left _ hd)).mpr ⟨c, hdc, hend⟩
  · rw [hmap, h.whole fun d hd hend => ?_]
    obtain ⟨c, hdc, hc⟩ := (hends d hd).mp hend
    exact hall c (List.mem_filterMap.mpr ⟨d, hd, hdc⟩) hc

/-- The call that ends the walk is the only one that does. -/
theorem CutAt.filter_of_ends {p : Call σ → Bool} {places : List Place} {calls : List (Call σ)}
    (h : CutAt (fun c => p c = true) places calls) {c : Call σ} (hc : c ∈ calls)
    (hend : p c = true) : calls.filter p = [c] := by
  obtain ⟨init, rfl⟩ := List.getLast?_eq_some_iff.mp (h.getLast?_of_ends hc hend)
  have hinit : init.filter p = [] := List.filter_eq_nil_iff.mpr fun d hd =>
    h.running d (by rwa [List.dropLast_concat])
  rw [List.filter_append, hinit, List.nil_append, List.filter_cons_of_pos hend, List.filter_nil]

/-- What is chained stays chained when less is seen of the scenes. -/
theorem Chained.map {Move : Scene τ → Scene τ → Prop} {Move' : Scene σ → Scene σ → Prop}
    {made : Call τ → Call σ} {s s' : Scene τ} {calls : List (Call τ)}
    (h : Chained Move s calls s') (seen : Scene τ → Scene σ)
    (hmove : ∀ a b, Move a b → Move' (seen a) (seen b))
    (hmade : ∀ d ∈ calls, (made d).before = seen d.before ∧ (made d).after = seen d.after) :
    Chained Move' (seen s) (calls.map made) (seen s') := by
  induction calls generalizing s with
  | nil => exact hmove _ _ h
  | cons d calls ih =>
    obtain ⟨hbefore, hafter⟩ := hmade d List.mem_cons_self
    refine ⟨hbefore ▸ hmove _ _ h.1, ?_⟩
    rw [hafter]
    exact ih h.2 fun e he => hmade e (List.mem_cons_of_mem _ he)

/-- What every move and every call lets happen happens from the first scene to each in which a call
is made. -/
theorem Chained.rel_before {Move : Scene τ → Scene τ → Prop} {R : Store → Store → Prop}
    {s s' : Scene τ} {calls : List (Call τ)} (htrans : ∀ a b c, R a b → R b c → R a c)
    (h : Chained Move s calls s') (hmove : ∀ a b, Move a b → R a.store b.store)
    (hcall : ∀ c ∈ calls, R c.before.store c.after.store) :
    ∀ c ∈ calls, R s.store c.before.store := by
  induction calls generalizing s with
  | nil => exact fun c hc => absurd hc List.not_mem_nil
  | cons d calls ih =>
    have hfirst := hmove _ _ h.1
    intro c hc
    rcases List.mem_cons.mp hc with rfl | hc
    · exact hfirst
    · have hrest := ih h.2 (fun e he => hcall e (List.mem_cons_of_mem d he)) c hc
      exact htrans _ _ _ hfirst (htrans _ _ _ (hcall d List.mem_cons_self) hrest)

/-- A visit of which no call fails returns. -/
theorem Visits.returns {spots : List Spot} {s s' : Scene σ} {r : Except Fault Bool}
    {calls : List (Call σ)} (h : Visits spots s s' r calls) (hgo : ∀ c ∈ calls, ¬ c.Fails) :
    ∃ goesOn, r = .ok goesOn := by
  by_cases hstop : ∃ c ∈ calls, c.Stops
  · obtain ⟨c, hc, hstop⟩ := hstop
    obtain ⟨i, hi, hi'⟩ := hstop.resolve_left (hgo c hc)
    exact ⟨false, h.stopped c hc i hi hi'⟩
  · exact ⟨true, h.ended fun c hc hstops => hstop ⟨c, hc, hstops⟩⟩

namespace Walk

variable {α : Type}

/-- Calls of one callback that lead from the same scene, the ones for the first places for which the
others are made, are the first of the others. -/
theorem prefix_of_chained (callback : Callback σ) {s s' s'' : Scene σ} {calls more : List (Call σ)}
    (h : Chained (fun a b => b = a) s calls s') (h' : Chained (fun a b => b = a) s more s'')
    (hcalls : ∀ c ∈ calls ++ more, c = callOf callback c.place c.before)
    (hplaces : calls.map Call.place <+: more.map Call.place) : calls <+: more := by
  induction calls generalizing s more with
  | nil => exact List.nil_prefix
  | cons c calls ih =>
    cases more with
    | nil => exact absurd (List.prefix_nil.mp hplaces) (by simp)
    | cons d more =>
      rw [List.map_cons, List.map_cons, List.cons_prefix_cons] at hplaces
      obtain ⟨hplace, hplaces⟩ := hplaces
      -- the two calls are made for the same place in the same scene
      obtain rfl : c = d := by
        rw [hcalls c (by simp), hcalls d (by simp), hplace, show c.before = s from h.1,
          show d.before = s from h'.1]
      refine List.cons_prefix_cons.mpr ⟨rfl, ih h.2 h'.2 (fun e he => hcalls e ?_) hplaces⟩
      simp only [List.cons_append, List.mem_cons, List.mem_append] at he ⊢
      tauto

/-- What each call of a callback notes is what a visit notes, one call after the other. -/
theorem notes_of_visit {callback : Callback τ} (notes : τ → List α) (made : Call τ → List α)
    (hstep : ∀ place s, notes (callOf callback place s).after.own =
      notes s.own ++ made (callOf callback place s)) {limit : Nat} {tree : Item} {reverse : Bool}
    {s final : Scene τ} {r : Except Fault Unit} {calls : List (Call τ)}
    (hrun : record (visit limit tree (recorded callback) reverse) s = (r, final, calls)) :
    notes final.own = notes s.own ++ calls.flatMap made := by
  -- the notes and the calls are kept in step with each other by every callback
  have hcb : AlikeCallbacks
      (fun own kept => kept.1 = own ∧ notes kept.1 = notes s.own ++ kept.2.flatMap made)
      callback (recorded callback) := by
    intro node index parent a b hab
    obtain ⟨hr, hs⟩ := recorded_alike callback node index parent a b
      ⟨hab.store, hab.log, hab.own.1⟩
    refine ⟨hr, ⟨hs.store, hs.log, hs.own, ?_⟩⟩
    rw [outcome_recorded]
    show notes (callOf callback _ b.withoutCalls).after.own = _ ++ (b.own.2 ++ [_]).flatMap made
    rw [hstep, List.flatMap_append, List.flatMap_singleton, ← List.append_assoc, ← hab.own.2]
    rfl
  obtain ⟨-, hs⟩ := visit_alike hcb limit tree reverse s (s.withCalls [])
    ⟨rfl, rfl, rfl, by simp [Scene.withCalls]⟩
  simp only [record, Prod.mk.injEq] at hrun
  obtain ⟨-, rfl, rfl⟩ := hrun
  exact hs.own.2

/-- What some are mapped to, and the others to nothing. -/
theorem flatMap_ite_singleton {β : Type} (p : α → Bool) (f : α → β) (xs : List α) :
    (xs.flatMap fun x => if p x then [f x] else []) = (xs.filter p).map f := by
  induction xs with
  | nil => rfl
  | cons x xs ih =>
    rw [List.flatMap_cons, List.filter_cons, ih]
    cases p x <;> rfl

/-- A recorded visit of a tree visits its occurrences. -/
theorem visits_of_record {callback : Callback τ} {reverse : Bool} {t : Tree} {limit : Nat}
    {s final : Scene τ} {result : Except Fault Unit} {calls : List (Call τ)}
    (hlimit : t.height ≤ limit) (hstand : t.StandsIn s.store)
    (hrun : record (visit limit t.item (recorded callback) reverse) s = (result, final, calls))
    (hkeep : ∀ c ∈ calls, c.KeepsChildren t.ids) :
    ∃ r s', Visits (t.preorder reverse) s s' r calls ∧ result = r.map fun _ => () := by
  rcases hnode : record (visitNode (recorded callback) reverse limit t.item none none) s with
    ⟨r, s', calls'⟩
  obtain ⟨last, hvisit, -, -⟩ := record_visit hnode
  rw [hvisit] at hrun
  obtain ⟨rfl, rfl, rfl⟩ : _ ∧ _ ∧ _ := by simpa only [Prod.mk.injEq] using hrun
  exact ⟨r, s', visitsTree callback reverse t.ids t limit [] none s s' r calls' hlimit hstand
    (List.Subset.refl _) hnode hkeep, rfl⟩

/-- Every call that a visit makes is what the callback comes to in its scene. -/
theorem eq_callOf_of_visit {callback : Callback τ} {limit : Nat} {tree : Item} {reverse : Bool}
    {s final : Scene τ} {r : Except Fault Unit} {calls : List (Call τ)}
    (hrun : record (visit limit tree (recorded callback) reverse) s = (r, final, calls)) :
    ∀ c ∈ calls, c = callOf callback c.place c.before := by
  have hcalls := forall_mem_of_record (P := fun c => c = callOf callback c.place c.before) callback
    (fun R h => ⟨_, visit_alike h limit tree reverse⟩) (fun _ _ => rfl) s
  rwa [hrun] at hcalls

/-! ## Questions -/

/-- A question as a callback: it is told of nothing but the node. -/
def asking (question : Item → Walk σ (Reply σ)) : Callback σ := fun node _ _ => question node

/-- A question that notes its calls. -/
def recordedQuestion (question : Item → Walk σ (Reply σ)) (node : Item) :
    Walk (σ × List (Call σ)) (Reply (σ × List (Call σ))) :=
  recorded (asking question) node none none

/-- The callback with which a search visits. It notes the nodes for which the question is answered
with something true, and gives one answer for these. -/
def searching (found : Item) (question : Item → Walk σ (Reply σ)) : Callback (σ × List Item) :=
  fun node _ _ => return .later (do
    if ← answersTrue question node then
      note node
      return found
    else return .nothing)

/-- Looking for all nodes is a visit that notes those that are found. -/
theorem findAll_eq (limit : Nat) (tree : Item) (question : Item → Walk σ (Reply σ)) :
    findAll limit tree question = (do
      let (_, found) ← keeping ([] : List Item)
        (visit limit tree (searching .nothing question) false)
      return found) := rfl

/-- Looking for a node is a visit that stops at the first one found. -/
theorem find_eq (limit : Nat) (tree : Item) (question : Item → Walk σ (Reply σ)) :
    find limit tree question = (do
      let (_, found) ← keeping ([] : List Item) (visit limit tree (searching .stop question) false)
      return found.headD .nothing) := rfl

/-- The call of a question that a search makes in one of its own calls. -/
def asked (question : Item → Walk σ (Reply σ))
    (d : Call ((σ × List (Call σ)) × List Item)) : Call σ :=
  callOf (asking question) ⟨d.place.node, none, none⟩
    ⟨d.before.store, d.before.log, d.before.own.1.1⟩

/-- A question is asked as if nothing more were kept. -/
theorem outcome_answersTrue {κ : Type} (question : Item → Walk σ (Reply σ)) (node : Item)
    (s : Scene (σ × κ)) :
    outcome (answersTrue question node) s =
      let c := callOf (asking question) ⟨node, none, none⟩ ⟨s.store, s.log, s.own.1⟩
      (c.answer.map fun _ => c.isTrue, ⟨c.after.store, c.after.log, (c.after.own, s.own.2)⟩) := by
  have hlifted : outcome (lifted (resolve (question node)) : Walk (σ × κ) Item) s =
      let after := outcome (resolve (question node)) ⟨s.store, s.log, s.own.1⟩
      (after.1, ⟨after.2.store, after.2.log, (after.2.own, s.own.2)⟩) := rfl
  rw [answersTrue, outcome_bind, hlifted]
  simp only [callOf, asking, Call.isTrue]
  rcases outcome (resolve (question node)) ⟨s.store, s.log, s.own.1⟩ with ⟨r, last⟩
  cases r <;> rfl

/-- A search asks the question, and notes the node if the answer is true. -/
theorem outcome_searching (found : Item) (question : Item → Walk σ (Reply σ)) (node : Item)
    (index : Option Nat) (parent : Option Item) (s : Scene (σ × List Item)) :
    outcome (resolve (searching found question node index parent)) s =
      let c := callOf (asking question) ⟨node, none, none⟩ ⟨s.store, s.log, s.own.1⟩
      (c.answer.map fun _ => if c.isTrue then found else .nothing,
        ⟨c.after.store, c.after.log,
          (c.after.own, s.own.2 ++ if c.isTrue then [node] else [])⟩) := by
  rw [searching, resolve_later, outcome_bind, outcome_answersTrue]
  dsimp only
  generalize callOf (asking question) ⟨node, none, none⟩ ⟨s.store, s.log, s.own.1⟩ = c
  -- a question that fails notes nothing, and neither does one with an answer that is not true
  cases hanswer : c.answer with
  | error e =>
    rw [Call.isTrue_of_error hanswer]
    simp [Except.map]
  | ok i =>
    rw [Except.map]
    cases c.isTrue with
    | true => rfl
    | false =>
      rw [if_neg Bool.false_ne_true, if_neg Bool.false_ne_true, List.append_nil]
      rfl

section Searching

variable {question : Item → Walk σ (Reply σ)} {found : Item}

/-- A call of the search asks the question, and notes the node when the answer is true. -/
theorem callOf_searching {d : Call ((σ × List (Call σ)) × List Item)}
    (hd : d = callOf (searching found (recordedQuestion question)) d.place d.before) :
    d.answer = (asked question d).answer.map
        (fun _ => if (asked question d).isTrue then found else .nothing) ∧
      d.after = ⟨(asked question d).after.store, (asked question d).after.log,
        (((asked question d).after.own, d.before.own.1.2 ++ [asked question d]),
          d.before.own.2 ++ if (asked question d).isTrue then [d.place.node] else [])⟩ := by
  obtain ⟨place, s, answer, after⟩ := d
  replace hd : Call.mk place s answer after =
    callOf (searching found (recordedQuestion question)) place s := hd
  rw [callOf, outcome_searching] at hd
  obtain ⟨-, -, rfl, rfl⟩ := Call.mk.inj hd
  exact ⟨rfl, rfl⟩

/-- A call of a search in which the question is answered ends the search if it is to do so and the
answer is true. -/
theorem stops_iff_asked {d : Call ((σ × List (Call σ)) × List Item)}
    (hd : d = callOf (searching found (recordedQuestion question)) d.place d.before)
    (hgo : ¬ (asked question d).Fails) :
    ¬ d.Fails ∧ (d.Stops ↔ found.isStop = true ∧ (asked question d).isTrue = true) := by
  obtain ⟨i, hi⟩ := Call.not_fails_iff.mp hgo
  have hanswer : d.answer = .ok (if (asked question d).isTrue then found else .nothing) := by
    rw [(callOf_searching hd).1, hi, Except.map]
  rw [Call.Stops, Call.Fails, hanswer]
  cases (asked question d).isTrue <;> simp [Item.isStop, Item.nothing]

/-- What the visit of a search notes: all questions, and the nodes for which the answer was true. -/
theorem notes_of_search {limit : Nat} {tree : Item} {s : Scene σ}
    {final : Scene ((σ × List (Call σ)) × List Item)} {r : Except Fault Unit}
    {ds : List (Call ((σ × List (Call σ)) × List Item))}
    (hrecord : record (visit limit tree (recorded (searching found (recordedQuestion question)))
      false) ⟨s.store, s.log, ((s.own, []), [])⟩ = (r, final, ds)) :
    final.own.1.2 = ds.map (asked question) ∧
      final.own.2 = ((ds.map (asked question)).filter Call.isTrue).map fun c => c.place.node := by
  -- the questions and the nodes that are found are noted side by side
  have hnoted : final.own.1.2 = [] ++ ds.flatMap fun d => [asked question d] :=
    notes_of_visit (fun own => own.1.2) (fun d => [asked question d])
      (fun place a => by rw [(callOf_searching (d := callOf _ place a) rfl).2]; rfl) hrecord
  have hfound : final.own.2 = [] ++ ds.flatMap fun d =>
      if (asked question d).isTrue then [d.place.node] else [] :=
    notes_of_visit (fun own => own.2)
      (fun d => if (asked question d).isTrue then [d.place.node] else [])
      (fun place a => by rw [(callOf_searching (d := callOf _ place a) rfl).2]; rfl) hrecord
  rw [List.nil_append, ← List.map_eq_flatMap] at hnoted
  rw [List.nil_append, flatMap_ite_singleton] at hfound
  refine ⟨hnoted, ?_⟩
  rw [hfound, List.filter_map, List.map_map]
  rfl

/-- The place of a question is the node alone. -/
def questionPlace (place : Place) : Place := ⟨place.node, none, none⟩

/-- What a search does: it asks the question of the occurrences in a tree, in order, up to the first
that ends it, and notes those of which the answer is true. -/
structure Searches (question : Item → Walk σ (Reply σ)) (ends : Call σ → Prop) (t : Tree)
    (s : Scene σ) (calls : List (Call σ)) : Prop where
  cut : CutAt ends (((t.preorder false).map Spot.place).map questionPlace) calls
  chained : ∃ s', Chained (fun a b => b = a) s calls s'
  call : ∀ c ∈ calls, c = callOf (asking question) c.place c.before

/-- A visit with the callback of a search asks the question, and notes what is to be found. -/
theorem searches_of_outcome {t : Tree} {limit : Nat} {s : Scene σ}
    {final : Scene ((σ × List (Call σ)) × List Item)} {r : Except Fault Unit}
    (hlimit : t.height ≤ limit) (hstand : t.StandsIn s.store)
    (hrun : outcome (visit limit t.item (searching found (recordedQuestion question)) false)
      ⟨s.store, s.log, ((s.own, []), [])⟩ = (r, final))
    (hcalls : ∀ c ∈ final.own.1.2, ¬ c.Fails ∧ c.KeepsChildren t.ids) :
    r = .ok () ∧
      final.own.2 = (final.own.1.2.filter Call.isTrue).map (fun c => c.place.node) ∧
      Searches question (fun c => found.isStop = true ∧ c.isTrue = true) t s final.own.1.2 := by
  rcases hrecord : record (visit limit t.item
    (recorded (searching found (recordedQuestion question))) false)
    ⟨s.store, s.log, ((s.own, []), [])⟩ with ⟨r', final', ds⟩
  obtain ⟨rfl, rfl⟩ : r' = r ∧ final' = final := by
    rw [outcome_of_record (visit_alike (recorded_alike _) limit t.item false) hrecord] at hrun
    exact Prod.mk.inj hrun
  obtain ⟨hnoted, hfound⟩ := notes_of_search hrecord
  rw [hnoted] at hcalls ⊢
  have heq := eq_callOf_of_visit hrecord
  have hasked : ∀ d ∈ ds, ¬ (asked question d).Fails ∧ (asked question d).KeepsChildren t.ids :=
    fun d hd => hcalls _ (List.mem_map_of_mem hd)
  have hstops := fun d hd => stops_iff_asked (heq d hd) (hasked d hd).1
  obtain ⟨r, last, hvisits, rfl⟩ := visits_of_record
    (s := ⟨s.store, s.log, ((s.own, []), [])⟩) hlimit hstand hrecord fun d hd => by
    rw [Call.KeepsChildren, (callOf_searching (heq d hd)).2]
    exact (hasked d hd).2
  obtain ⟨goesOn, rfl⟩ := hvisits.returns fun d hd => (hstops d hd).1
  refine ⟨rfl, hfound, ?_, ?_, ?_⟩
  · -- the visit is cut where the search stops it, and its calls are those of the question
    have hcut : CutAt (fun c => found.isStop = true ∧ c.isTrue = true) _ _ :=
      hvisits.cut.filterMap (fun d => some (asked question d))
        (fun place => some (questionPlace place)) (fun d _ => rfl)
        fun d hd => (hstops d hd).2.trans (by simp)
    rwa [List.filterMap_eq_map', List.filterMap_eq_map'] at hcut
  · refine ⟨_, hvisits.chained.map (fun a => ⟨a.store, a.log, a.own.1.1⟩)
      (fun a b hab => by rw [hab]) fun d hd => ⟨rfl, ?_⟩⟩
    rw [(callOf_searching (heq d hd)).2]
  · intro c hc
    obtain ⟨d, -, rfl⟩ := List.mem_map.mp hc
    rfl

/-- A search of the nodes of which something is true: its visit, and what was noted. -/
theorem record_findAll (limit : Nat) (tree : Item) (s : Scene σ) :
    record (findAll limit tree (recordedQuestion question)) s =
      let (r, last) := outcome (visit limit tree (searching .nothing (recordedQuestion question))
        false) ⟨s.store, s.log, ((s.own, []), [])⟩
      (r.map fun _ => last.own.2, ⟨last.store, last.log, last.own.1.1⟩, last.own.1.2) := by
  rw [record, findAll_eq, outcome_bind, outcome_keeping]
  dsimp only [Scene.withCalls]
  rcases outcome (visit limit tree (searching .nothing (recordedQuestion question)) false)
    ⟨s.store, s.log, ((s.own, []), [])⟩ with ⟨r, last⟩
  cases r <;> rfl

/-- A recorded search is a visit with its calls and what it found. -/
theorem record_find (limit : Nat) (tree : Item) (s : Scene σ) :
    record (find limit tree (recordedQuestion question)) s =
      let (r, last) := outcome (visit limit tree (searching .stop (recordedQuestion question))
        false) ⟨s.store, s.log, ((s.own, []), [])⟩
      (r.map fun _ => last.own.2.headD .nothing, ⟨last.store, last.log, last.own.1.1⟩,
        last.own.1.2) := by
  rw [record, find_eq, outcome_bind, outcome_keeping]
  dsimp only [Scene.withCalls]
  rcases outcome (visit limit tree (searching .stop (recordedQuestion question)) false)
    ⟨s.store, s.log, ((s.own, []), [])⟩ with ⟨r, last⟩
  cases r <;> rfl

variable {t : Tree} {limit : Nat} {s final : Scene σ} {calls : List (Call σ)}

/-- A search for all nodes asks of every occurrence, and finds those of which the answer is true. -/
theorem findAll_searches {r : Except Fault (List Item)} (hlimit : t.height ≤ limit)
    (hstand : t.StandsIn s.store)
    (hrun : record (findAll limit t.item (recordedQuestion question)) s = (r, final, calls))
    (hcalls : ∀ c ∈ calls, ¬ c.Fails ∧ c.KeepsChildren t.ids) :
    r = .ok ((calls.filter Call.isTrue).map fun c => c.place.node) ∧
      Searches question (fun _ => False) t s calls := by
  rw [record_findAll] at hrun
  rcases hvisit : outcome (visit limit t.item
    (searching .nothing (recordedQuestion question)) false)
    ⟨s.store, s.log, ((s.own, []), [])⟩ with ⟨r', last⟩
  rw [hvisit] at hrun
  obtain ⟨rfl, rfl, rfl⟩ : _ ∧ _ ∧ _ := by simpa only [Prod.mk.injEq] using hrun
  obtain ⟨rfl, hfound, hsearch⟩ := searches_of_outcome hlimit hstand hvisit hcalls
  simp only [Item.isStop, Item.nothing, Bool.false_eq_true, false_and] at hsearch
  exact ⟨congrArg Except.ok hfound, hsearch⟩

/-- A search for the first node asks of the occurrences up to one of which the answer is true, and
finds that one. -/
theorem find_searches {r : Except Fault Item} (hlimit : t.height ≤ limit)
    (hstand : t.StandsIn s.store)
    (hrun : record (find limit t.item (recordedQuestion question)) s = (r, final, calls))
    (hcalls : ∀ c ∈ calls, ¬ c.Fails ∧ c.KeepsChildren t.ids) :
    r = .ok (((calls.filter Call.isTrue).map fun c => c.place.node).headD .nothing) ∧
      Searches question (fun c => c.isTrue = true) t s calls := by
  rw [record_find] at hrun
  -- a search is a visit that keeps, beside what the question keeps, what has been found
  rcases hvisit : outcome (visit limit t.item (searching .stop (recordedQuestion question)) false)
    ⟨s.store, s.log, ((s.own, []), [])⟩ with ⟨r', last⟩
  rw [hvisit] at hrun
  obtain ⟨rfl, rfl, rfl⟩ : _ ∧ _ ∧ _ := by simpa only [Prod.mk.injEq] using hrun
  obtain ⟨rfl, hfound, hsearch⟩ := searches_of_outcome hlimit hstand hvisit hcalls
  simp only [Item.isStop, Item.stop, true_and] at hsearch
  refine ⟨?_, hsearch⟩
  rw [← hfound]
  rfl

/-- A search that ends early asks what the search for all begins with. -/
theorem Searches.isPrefix {ends ends' : Call σ → Prop} {more : List (Call σ)}
    (h : Searches question ends t s calls) (h' : Searches question ends' t s more)
    (hall : ∀ c ∈ more, ¬ ends' c) : calls <+: more := by
  obtain ⟨s', hchained⟩ := h.chained
  obtain ⟨s'', hchained'⟩ := h'.chained
  refine prefix_of_chained (asking question) hchained hchained' (fun c hc => ?_) ?_
  · exact (List.mem_append.mp hc).elim (h.call c) (h'.call c)
  · rw [h'.cut.whole hall]
    exact h.cut.made

end Searching

/-! ## Visits of one type -/

section Typed

variable {visitor : Callback σ} {type : Value}

/-- The call that a callback for one type makes in a call of its own, if the type is right. -/
def called (visitor : Callback σ) (type : Value) (d : Call (σ × List (Call σ))) :
    Option (Call σ) :=
  if hasTypeOf d.before.store d.place.node type then
    some (callOf visitor d.place d.before.withoutCalls)
  else none

/-- A call of a callback for one type comes to the call of the other callback, or to nothing. -/
theorem called_cases {d : Call (σ × List (Call σ))}
    (hd : d = callOf (onlyType type (recorded visitor)) d.place d.before) :
    (hasTypeOf d.before.store d.place.node type = true ∧
      ∃ c, called visitor type d = some c ∧ c.place = d.place ∧ d.answer = c.answer ∧
        d.before.store = c.before.store ∧ d.after = c.after.withCalls (d.before.own.2 ++ [c])) ∨
      hasTypeOf d.before.store d.place.node type = false ∧ called visitor type d = none ∧
        d.answer = .ok .nothing ∧ d.after = d.before := by
  obtain ⟨place, s, answer, after⟩ := d
  replace hd : Call.mk place s answer after =
    callOf (onlyType type (recorded visitor)) place s := hd
  rw [callOf, onlyType, resolve_later, outcome_getStore_bind] at hd
  -- the visitor is called when the node has the type, and else nothing happens
  cases htype : hasTypeOf s.store place.node type with
  | true =>
    rw [htype, if_pos rfl, outcome_recorded] at hd
    obtain ⟨-, -, rfl, rfl⟩ := Call.mk.inj hd
    exact .inl ⟨rfl, _, if_pos htype, rfl, rfl, rfl, rfl⟩
  | false =>
    rw [htype, if_neg Bool.false_ne_true] at hd
    obtain ⟨-, -, rfl, rfl⟩ := Call.mk.inj hd
    exact .inr ⟨rfl, if_neg (by simp [htype]), rfl, rfl⟩

/-- What holds of two stores if they are the same, and if they are those before and behind the call
that is made, holds of those before and behind the call in which it is made. -/
theorem rel_of_called {R : Store → Store → Prop} (hrefl : ∀ a, R a a)
    {d : Call (σ × List (Call σ))}
    (hd : d = callOf (onlyType type (recorded visitor)) d.place d.before)
    (h : ∀ c, called visitor type d = some c → R c.before.store c.after.store) :
    R d.before.store d.after.store := by
  rcases called_cases hd with ⟨-, c, hc, -, -, hbefore, hafter⟩ | ⟨-, -, -, hafter⟩
  · rw [hbefore, hafter]
    exact h c hc
  · rw [hafter]
    exact hrefl _

/-- A call ends a visit of one type if it makes a call that does. -/
theorem stops_iff_called {d : Call (σ × List (Call σ))}
    (hd : d = callOf (onlyType type (recorded visitor)) d.place d.before) :
    d.Stops ↔ ∃ c, called visitor type d = some c ∧ c.Stops := by
  rcases called_cases hd with ⟨-, c, hc, -, hanswer, -⟩ | ⟨-, hnone, hanswer, -⟩
  · simp [Call.Stops, Call.Fails, hanswer, hc]
  · simp [Call.Stops, Call.Fails, hanswer, hnone, Item.isStop, Item.nothing]

/-- A call fails when the visitor was called in it and failed. -/
theorem fails_iff_called {d : Call (σ × List (Call σ))}
    (hd : d = callOf (onlyType type (recorded visitor)) d.place d.before) :
    d.Fails ↔ ∃ c, called visitor type d = some c ∧ c.Fails := by
  rcases called_cases hd with ⟨-, c, hc, -, hanswer, -⟩ | ⟨-, hnone, hanswer, -⟩
  · simp [Call.Fails, hanswer, hc]
  · simp [Call.Fails, hanswer, hnone]

/-- The calls that a visit of one type makes are made in the calls of a visit. -/
theorem exists_of_record_visitType {limit : Nat} {tree : Item} {reverse : Bool} {s final : Scene σ}
    {r : Except Fault Unit} {calls : List (Call σ)}
    (hrun : record (visitType limit tree type (recorded visitor) reverse) s = (r, final, calls)) :
    ∃ last ds, record (visit limit tree (recorded (onlyType type (recorded visitor))) reverse)
      (s.withCalls []) = (r, last, ds) ∧ calls = ds.filterMap (called visitor type) := by
  rcases hrecord : record (visit limit tree (recorded (onlyType type (recorded visitor))) reverse)
    (s.withCalls []) with ⟨r', last, ds⟩
  have houtcome := outcome_of_record (visit_alike (recorded_alike _) limit tree reverse) hrecord
  rw [record, visitType, houtcome] at hrun
  obtain ⟨rfl, rfl, rfl⟩ : _ ∧ _ ∧ _ := by simpa only [Prod.mk.injEq] using hrun
  refine ⟨last, ds, rfl, ?_⟩
  -- each call of the visit notes the visitor's call, if there is one
  have hnoted : last.own.2 = [] ++ ds.flatMap fun d => (called visitor type d).toList := by
    refine notes_of_visit (fun own => own.2) (fun d => (called visitor type d).toList)
      (fun place a => ?_) hrecord
    let d := callOf (onlyType type (recorded visitor)) place a
    have hcall : d = callOf (onlyType type (recorded visitor)) d.place d.before := rfl
    rcases called_cases hcall with
      ⟨-, c, hc, -, -, -, hafter⟩ | ⟨-, hnone, -, hafter⟩
    · rw [hc, hafter]
      rfl
    · rw [hnone, hafter]
      exact (List.append_nil _).symm
  rwa [List.nil_append, ← List.filterMap_eq_flatMap_toList] at hnoted

/-- The call left the nodes at some places of the type, or not of the type, as they were. -/
def KeepsType (type : Value) (places : List Place) (c : Call σ) : Prop :=
  ∀ place ∈ places,
    hasTypeOf c.after.store place.node type = hasTypeOf c.before.store place.node type

/-- A visit of one type calls back for those of the places that a visit comes to of which the node
has the type, up to the first call that stops it. -/
theorem visitType_calls {reverse : Bool} {t : Tree} {limit : Nat} {s final : Scene σ}
    {r : Except Fault Unit} {calls : List (Call σ)} (hlimit : t.height ≤ limit)
    (hstand : t.StandsIn s.store)
    (hrun : record (visitType limit t.item type (recorded visitor) reverse) s = (r, final, calls))
    (hcalls : ∀ c ∈ calls, ¬ c.Fails ∧ c.KeepsChildren t.ids ∧
      KeepsType type ((t.preorder reverse).map Spot.place) c) :
    r = .ok () ∧ CutAt Call.Stops
      (((t.preorder reverse).map Spot.place).filter fun place =>
        hasTypeOf s.store place.node type) calls := by
  obtain ⟨last, ds, hrecord, rfl⟩ := exists_of_record_visitType hrun
  have heq := eq_callOf_of_visit hrecord
  have hcalled : ∀ d ∈ ds, ∀ c, called visitor type d = some c → ¬ c.Fails ∧
      c.KeepsChildren t.ids ∧ KeepsType type ((t.preorder reverse).map Spot.place) c :=
    fun d hd c hc => hcalls c (List.mem_filterMap.mpr ⟨d, hd, hc⟩)
  obtain ⟨r, s', hvisits, rfl⟩ := visits_of_record (s := s.withCalls []) hlimit hstand hrecord
    fun d hd => rel_of_called (.refl _) (heq d hd) fun c hc => (hcalled d hd c hc).2.1
  obtain ⟨goesOn, rfl⟩ := hvisits.returns fun d hd hfail => by
    obtain ⟨c, hc, hfail⟩ := (fails_iff_called (heq d hd)).mp hfail
    exact (hcalled d hd c hc).1 hfail
  -- types are what they were at first, at every call
  have htypes : ∀ d ∈ ds, ∀ place ∈ (t.preorder reverse).map Spot.place,
      hasTypeOf d.before.store place.node type = hasTypeOf s.store place.node type :=
    hvisits.chained.rel_before (R := fun a b => ∀ place ∈ (t.preorder reverse).map Spot.place,
        hasTypeOf b place.node type = hasTypeOf a place.node type)
      (fun _ _ _ hab hbc place hplace => (hbc place hplace).trans (hab place hplace))
      (fun a b hab place _ => by rw [hab]) fun d hd =>
        rel_of_called (R := fun a b => ∀ place ∈ (t.preorder reverse).map Spot.place,
          hasTypeOf b place.node type = hasTypeOf a place.node type) (fun _ _ _ => rfl) (heq d hd)
          fun c hc => (hcalled d hd c hc).2.2
  refine ⟨rfl, ?_⟩
  have hcut : CutAt Call.Stops _ _ := hvisits.cut.filterMap (called visitor type)
    (Option.guard fun place => hasTypeOf s.store place.node type) (fun d hd => ?_)
    fun d hd => stops_iff_called (heq d hd)
  · rwa [List.filterMap_eq_filter] at hcut
  · rw [Option.guard, ← htypes d hd d.place (hvisits.cut.place_mem hd)]
    rcases called_cases (heq d hd) with ⟨htype, c, hc, hplace, -⟩ | ⟨htype, hnone, -⟩
    · rw [htype, hc, Option.map_some, hplace]
      rfl
    · rw [htype, hnone]
      rfl

end Typed

/-! ## Searches beside visits -/

/-- A recorded question is alike the question, but for the notes. -/
theorem recordedQuestion_alike (question : Item → Walk σ (Reply σ)) :
    AlikeQuestions (fun own kept => kept.1 = own) question (recordedQuestion question) :=
  fun node => recorded_alike (asking question) node none none

/-- Of the calls that a search for all makes, those that a search for the first makes have the
first true answer, if there is one. -/
theorem head_of_isPrefix {calls more : List (Call σ)} {places : List Place}
    (hinitial : calls <+: more) (hcut : CutAt (fun c => c.isTrue = true) places calls)
    (hplaces : more.map Call.place = places) :
    (calls.filter Call.isTrue).head? = (more.filter Call.isTrue).head? := by
  by_cases htrue : ∃ c ∈ calls, c.isTrue = true
  · obtain ⟨c, hc, htrue⟩ := htrue
    obtain ⟨rest, hrest⟩ := hinitial.filter Call.isTrue
    have hne : calls.filter Call.isTrue ≠ [] :=
      List.ne_nil_of_mem (List.mem_filter.mpr ⟨hc, htrue⟩)
    rw [← hrest, List.head?_append_of_ne_nil _ hne]
  · -- without a true answer the search goes through to the end
    have hwhole := hcut.whole fun c hc h => htrue ⟨c, hc, h⟩
    have hlength := congrArg List.length (hwhole.trans hplaces.symm)
    rw [List.length_map, List.length_map] at hlength
    rw [hinitial.eq_of_length hlength]

section Beside

variable {t : Tree} {limit : Nat} {s s₁ s₂ s₃ : Scene σ} {watcher visitor : Callback σ}
  {question : Item → Walk σ (Reply σ)} {type : Value} {reverse : Bool}
  {visited : Bool → List (Call σ)} {all : Except Fault (List Item)} {first : Except Fault Item}
  {result : Except Fault Unit} {calls calls' calls'' : List (Call σ)}

/-- Searches and visits of one type meet what a visit meets that is not stopped. A search for all
nodes asks once of every occurrence, in the order of the visit, and finds those of which the answer
counts as true. A search for the first finds the first of these, or nothing, and asks what the other
search asks, up to that one. A visit of one type makes the calls of the visit for the nodes of the
type, up to the first that stops it. -/
theorem searches_follow_visit (hlimit : t.height ≤ limit) (hstand : t.StandsIn s.store)
    (hvisit : ∀ reverse,
      (record (visit limit t.item (recorded watcher) reverse) s).2.2 = visited reverse)
    (hwatcher : ∀ reverse, ∀ c ∈ visited reverse, ¬ c.Stops ∧ c.KeepsChildren t.ids)
    (hall : record (findAll limit t.item (recordedQuestion question)) s = (all, s₁, calls))
    (hfind : record (find limit t.item (recordedQuestion question)) s = (first, s₂, calls'))
    (hquestion : ∀ c ∈ calls ++ calls', ¬ c.Fails ∧ c.KeepsChildren t.ids)
    (htyped : record (visitType limit t.item type (recorded visitor) reverse) s =
      (result, s₃, calls''))
    (hvisitor : ∀ c ∈ calls'', ¬ c.Fails ∧ c.KeepsChildren t.ids ∧
      KeepsType type ((t.preorder reverse).map Spot.place) c) :
    (outcome (findAll limit t.item question) s = (all, s₁) ∧
        outcome (find limit t.item question) s = (first, s₂) ∧
        outcome (visitType limit t.item type visitor reverse) s = (result, s₃)) ∧
      (∀ reverse, (visited reverse).map Call.place = (t.preorder reverse).map Spot.place) ∧
      (calls.map (fun c => c.place.node) = (visited false).map (fun c => c.place.node) ∧
        ∃ found, all = .ok found ∧ found = (calls.filter Call.isTrue).map (fun c => c.place.node) ∧
          first = .ok (found.headD .nothing)) ∧
      (calls' <+: calls ∧ CutAt (fun c => c.isTrue = true) (calls.map Call.place) calls' ∧
        ∀ c ∈ calls', c.isTrue = true →
          calls'.getLast? = some c ∧ first = .ok c.place.node) ∧
      result = .ok () ∧
      CutAt Call.Stops (((visited reverse).map Call.place).filter fun place =>
        hasTypeOf s.store place.node type) calls'' := by
  -- a visitor that changes nothing and never stops is called at every place
  have hplaces : ∀ reverse, (visited reverse).map Call.place =
      (t.preorder reverse).map Spot.place := fun reverse => by
    rcases hrun : record (visit limit t.item (recorded watcher) reverse) s with ⟨r, final, cs⟩
    have hcs := hvisit reverse
    rw [hrun] at hcs
    obtain rfl : cs = visited reverse := hcs
    obtain ⟨-, hcut, -⟩ := visit_preorder hlimit hstand hrun fun c hc => (hwatcher reverse c hc).2
    exact hcut.whole fun c hc => (hwatcher reverse c hc).1
  obtain ⟨hfound, hasks⟩ := findAll_searches hlimit hstand hall fun c hc =>
    hquestion c (List.mem_append_left _ hc)
  obtain ⟨hfirst, hasks'⟩ := find_searches hlimit hstand hfind fun c hc =>
    hquestion c (List.mem_append_right _ hc)
  obtain ⟨hresult, hcut⟩ := visitType_calls hlimit hstand htyped hvisitor
  have hwhole := hasks.cut.whole fun _ _ => id
  have hinitial := hasks'.isPrefix hasks fun _ _ => id
  have hhead := head_of_isPrefix hinitial hasks'.cut hwhole
  refine ⟨⟨?_, ?_, ?_⟩, hplaces, ⟨?_, _, hfound, rfl, ?_⟩, ⟨hinitial, hwhole ▸ hasks'.cut, ?_⟩,
    hresult, ?_⟩
  · exact outcome_of_record (findAll_alike (recordedQuestion_alike question) limit t.item) hall
  · exact outcome_of_record (find_alike (recordedQuestion_alike question) limit t.item) hfind
  · refine outcome_of_record (visit_alike ?_ limit t.item reverse) htyped
    exact onlyType_alike (recorded_alike visitor) type
  · have hnodes := congrArg (List.map Place.node) hwhole
    rw [List.map_map, ← hplaces false, List.map_map, List.map_map] at hnodes
    exact hnodes
  · rw [hfirst, List.headD_eq_head?_getD, List.headD_eq_head?_getD, List.head?_map, List.head?_map,
      hhead]
  · intro c hc htrue
    refine ⟨hasks'.cut.getLast?_of_ends hc htrue, ?_⟩
    rw [hfirst, hasks'.cut.filter_of_ends hc htrue]
    rfl
  · rw [hplaces]
    exact hcut

end Beside

/-- The second occurrence is answered with the signal to stop and the third with a number, which
both count as true. -/
theorem searches_follow_visit_sample :
    let answer : Nat → Item → Except Fault Item := fun k _ =>
      .ok (if k = 1 then .stop else if k = 2 then .plain (.int 1) else .plain (.bool false))
    let question : Item → Walk Nat (Reply Nat) := fun node => counting answer node none none
    let s : Scene Nat := ⟨Store.sample, [], 0⟩
    ∃ all s₁ calls first s₂ calls' result s₃ calls'',
      record (findAll 3 Tree.sample.item (recordedQuestion question)) s = (all, s₁, calls) ∧
      record (find 3 Tree.sample.item (recordedQuestion question)) s = (first, s₂, calls') ∧
      record (visitType 3 Tree.sample.item (.text "code") (recorded (counting answer)) true) s =
        (result, s₃, calls'') ∧
      (∀ c ∈ calls ++ calls' ++ calls'', ¬ c.Fails ∧ c.after.store = c.before.store) ∧
      all = .ok [.node ⟨1⟩, .node ⟨3⟩] ∧ first = .ok (.node ⟨1⟩) ∧ calls' <+: calls ∧
      CutAt Call.Stops (((Tree.sample.preorder true).map Spot.place).filter fun place =>
        hasTypeOf Store.sample place.node (.text "code")) calls'' := by
  intro answer question s
  let P : Call Nat → Prop := fun c => ¬ c.Fails ∧ c.after.store = c.before.store
  have hP : ∀ place a, P (callOf (counting answer) place a) := fun place a =>
    ⟨Call.not_fails_iff.mpr ⟨_, rfl⟩, rfl⟩
  have hkeeps : ∀ c, P c → ¬ c.Fails ∧ c.KeepsChildren Tree.sample.ids := fun c h =>
    ⟨h.1, by rw [Call.KeepsChildren, h.2]; exact .refl _ _⟩
  have hgo : ∀ place a, ¬ (callOf (counting fun _ _ => .ok .nothing) place a).Stops := by
    rintro place a (⟨e, he⟩ | ⟨i, hi, hstop⟩)
    · cases he
    · rw [← Except.ok.inj hi] at hstop
      cases hstop
  have hwatcher : ∀ reverse, ∀ c ∈ (record (visit 3 Tree.sample.item
      (recorded (counting fun _ _ => .ok .nothing)) reverse) s).2.2,
      ¬ c.Stops ∧ c.KeepsChildren Tree.sample.ids := fun reverse =>
    forall_mem_of_record (P := fun c => ¬ c.Stops ∧ c.KeepsChildren Tree.sample.ids) _
      (fun R h => ⟨_, visit_alike h 3 Tree.sample.item reverse⟩)
      (fun place a => ⟨hgo place a, Store.KeepsChildren.refl _ a.store⟩) s
  rcases hall : record (findAll 3 Tree.sample.item (recordedQuestion question)) s with
    ⟨all, s₁, calls⟩
  rcases hfind : record (find 3 Tree.sample.item (recordedQuestion question)) s with
    ⟨first, s₂, calls'⟩
  rcases htyped : record (visitType 3 Tree.sample.item (.text "code") (recorded (counting answer))
    true) s with ⟨result, s₃, calls''⟩
  -- what is known of each call is enough, so none of the runs is written out
  have hcalls := forall_mem_of_record (P := P)
    (w := findAll 3 Tree.sample.item (recordedQuestion question)) (asking question)
    (fun R h => ⟨_, findAll_alike (p := question) (fun node => h node none none) 3
      Tree.sample.item⟩) (fun place => hP ⟨place.node, none, none⟩) s
  have hcalls' := forall_mem_of_record (P := P)
    (w := find 3 Tree.sample.item (recordedQuestion question)) (asking question)
    (fun R h => ⟨_, find_alike (p := question) (fun node => h node none none) 3 Tree.sample.item⟩)
    (fun place => hP ⟨place.node, none, none⟩) s
  have hcalls'' := forall_mem_of_record (P := P)
    (w := visitType 3 Tree.sample.item (.text "code") (recorded (counting answer)) true)
    (counting answer)
    (fun R h => ⟨_, visit_alike (onlyType_alike h (.text "code")) 3 Tree.sample.item true⟩) hP s
  rw [hall] at hcalls
  rw [hfind] at hcalls'
  rw [htyped] at hcalls''
  obtain ⟨⟨h₁, h₂, -⟩, hplaces, -, ⟨hinitial, -⟩, -, hcut⟩ := searches_follow_visit
    (t := Tree.sample) (by decide) Tree.sample_standsIn (fun _ => rfl) hwatcher hall hfind
    (fun c hc => hkeeps c ((List.mem_append.mp hc).elim (hcalls c) (hcalls' c))) htyped
    fun c hc => ⟨(hkeeps c (hcalls'' c hc)).1, (hkeeps c (hcalls'' c hc)).2, fun place _ => by
      rw [(hcalls'' c hc).2]⟩
  have hfound : (outcome (findAll 3 Tree.sample.item question) s).1 =
      .ok [.node ⟨1⟩, .node ⟨3⟩] := by rfl
  have hfirst : (outcome (find 3 Tree.sample.item question) s).1 = .ok (.node ⟨1⟩) := by rfl
  rw [h₁] at hfound
  rw [h₂] at hfirst
  refine ⟨all, s₁, calls, first, s₂, calls', result, s₃, calls'', rfl, rfl, rfl, fun c hc => ?_,
    hfound, hfirst, hinitial, ?_⟩
  · rcases List.mem_append.mp hc with hc | hc
    · exact (List.mem_append.mp hc).elim (hcalls c) (hcalls' c)
    · exact hcalls'' c hc
  · rwa [hplaces] at hcut

end Walk

end NotebookTree
