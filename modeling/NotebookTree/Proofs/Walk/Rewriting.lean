import NotebookTree.Proofs.Store.Holds
import NotebookTree.Proofs.Value.Rewriting
import NotebookTree.Proofs.Walk.Transform.Run

/-!
# Transforms as rewriting

A transform changes a store. Seen from the trees that the store holds it is rewriting: the children
of a node are rewritten, and then the node with its new children may be replaced. For a callback
that answers as a function of trees does, `rewriteWithin` says without any store what becomes of a
tree; the transform comes to just that, and fails where it fails.

## Main definitions

* `Store.Turned`: what a store holds in the place of some trees, when nothing else has changed.
* `Walk.Answers`: a callback answers as a function of trees does.
* `Walk.Realises`: a transform comes to the tree that rewriting comes to.

## Main results

* `Walk.realises`: a transform rewrites the tree that it is given.
-/

namespace NotebookTree

/-! ## Trees in the place of others -/

namespace Store

/-- A store holds some trees where it held others, whose identities are given: the new trees have
some of these and new ones, and all other nodes are as they were. -/
structure Turned (s s' : Store) (old : List Identity) (parts : List Held) : Prop where
  holds : ∀ p ∈ parts, Holds s' p
  nodup : (parts.flatMap Held.identities).Nodup
  identities : ∀ x ∈ parts.flatMap Held.identities, x ∈ old ∨ x.IsNew s
  keeps : Keeps (fun id => .node id ∉ old) (fun _ => True) s s'

namespace Turned

variable {s s' s'' : Store} {old more : List Identity} {p q : Held} {parts others : List Held}

/-- Of no trees none is made. -/
theorem nil (s : Store) : Turned s s [] [] where
  holds := List.forall_mem_nil _
  nodup := List.nodup_nil
  identities := List.forall_mem_nil _
  keeps := .refl s

/-- A tree is held still when the store has only grown. -/
theorem of_keepsAll (hp : Holds s p) (h : KeepsAll s s') : Turned s s' p.identities [p] where
  holds := List.forall_mem_singleton.mpr (hp.keepAll h)
  nodup := by simpa using hp.nodup
  identities x hx := .inl (by simpa using hx)
  keeps := h.mono (fun _ _ => trivial) fun _ h => h

/-- A new tree comes in the place of any when the store has only grown. -/
theorem of_isNew (hq : Holds s' q) (hnew : ∀ x ∈ q.identities, x.IsNew s) (h : KeepsAll s s') :
    Turned s s' old [q] where
  holds := List.forall_mem_singleton.mpr hq
  nodup := by simpa using hq.nodup
  identities x hx := .inr (hnew x (by simpa using hx))
  keeps := h.mono (fun _ _ => trivial) fun _ h => h

/-- The one tree that was made is held. -/
theorem holds_one (h : Turned s s' old [p]) : Holds s' p := h.holds p List.mem_cons_self

/-- The one tree that was made has old identities and new ones. -/
theorem identities_one (h : Turned s s' old [p]) {x : Identity} (hx : x ∈ p.identities) :
    x ∈ old ∨ x.IsNew s :=
  h.identities x (by simpa using hx)

/-- A node that is there and is none of the old ones is none of those that came in their place. -/
theorem not_mem_of_node? (h : Turned s s' old parts) {id : NodeId} {n : NodeState}
    (hid : Identity.node id ∉ old) (hn : s.node? id = some n) :
    Identity.node id ∉ parts.flatMap Held.identities :=
  fun hmem => (h.identities _ hmem).elim hid fun hnew => Nat.not_le.mpr (lt_of_node? hn) hnew

/-- What has come in the place of trees may be turned once more, together with more of what was
there. -/
theorem trans {all : List Identity} (h : Turned s s' old parts)
    (h' : Turned s' s'' (more ++ parts.flatMap Held.identities) others) (hold : old ⊆ all)
    (hmore : more ⊆ all) : Turned s s'' all others where
  holds := h'.holds
  nodup := h'.nodup
  identities x hx := by
    obtain hmem | hnew := h'.identities x hx
    · obtain hx | hx := List.mem_append.mp hmem
      · exact .inl (hmore hx)
      · exact (h.identities x hx).imp_left (hold ·)
    · exact .inr (isNew_of_keeps h.keeps hnew)
  keeps := by
    refine ⟨Nat.le_trans h.keeps.nodes_le h'.keeps.nodes_le,
      Nat.le_trans h.keeps.rows_le h'.keeps.rows_le, fun id hid n hn => ?_,
      fun id _ items hr => h'.keeps.row id trivial items (h.keeps.row id trivial items hr)⟩
    -- a node that neither step was given is not among what the first one made either
    have hout : Identity.node id ∉ old := fun hmem => hid (hold hmem)
    refine h'.keeps.node id (fun hmem => ?_) n (h.keeps.node id hout n hn)
    exact (List.mem_append.mp hmem).elim (fun hx => hid (hmore hx)) (h.not_mem_of_node? hout hn)

/-- Those that wait stay held. -/
theorem waiting {rest : List Held} (hrest : ∀ r ∈ rest, Holds s r)
    (hnodup : (p :: rest |>.flatMap Held.identities).Nodup) (h : Turned s s' p.identities [q]) :
    ∀ r ∈ rest, Holds s' r := by
  intro r hr
  refine (hrest r hr).keep h.keeps (fun id hid hp => ?_) fun _ _ => trivial
  rw [List.flatMap_cons, List.nodup_append] at hnodup
  exact hnodup.2.2 _ hp _ (List.mem_flatMap.mpr ⟨r, hr, hid⟩) rfl

/-- What has come in the place of one tree shares no identity with those that wait. -/
theorem not_mem_rest {rest : List Held} (hrest : ∀ r ∈ rest, Holds s r)
    (hnodup : (p :: rest |>.flatMap Held.identities).Nodup) (h : Turned s s' p.identities [q])
    {x : Identity} (hx : x ∈ q.identities) : x ∉ rest.flatMap Held.identities := by
  intro hmem
  rw [List.flatMap_cons, List.nodup_append] at hnodup
  obtain hp | hnew := h.identities_one hx
  · exact hnodup.2.2 x hp x hmem rfl
  · obtain ⟨r, hr, hxr⟩ := List.mem_flatMap.mp hmem
    exact (hrest r hr).not_isNew x hxr hnew

/-- Trees are turned one after the other. Those that are done stay held to the end. -/
theorem cons {rest : List Held} (hrest : ∀ r ∈ rest, Holds s r)
    (hnodup : (p :: rest |>.flatMap Held.identities).Nodup) (h : Turned s s' p.identities [q])
    (h' : Turned s' s'' (rest.flatMap Held.identities) parts) :
    Turned s s'' (p :: rest |>.flatMap Held.identities) (q :: parts) where
  holds := List.forall_mem_cons.mpr ⟨h.holds_one.keep h'.keeps
    (fun _ hid => not_mem_rest hrest hnodup h hid) fun _ _ => trivial, h'.holds⟩
  nodup := by
    rw [List.flatMap_cons]
    -- what the others were turned into has their identities and new ones, none of which the first
    -- tree has
    refine h.holds_one.nodup.append h'.nodup fun x hx hx' => ?_
    obtain hmem | hnew := h'.identities x hx'
    · exact not_mem_rest hrest hnodup h hx hmem
    · exact h.holds_one.not_isNew x hx hnew
  identities := by
    rw [List.flatMap_cons, List.flatMap_cons]
    refine List.forall_mem_append.mpr ⟨fun x hx => ?_, fun x hx => ?_⟩
    · exact (h.identities_one hx).imp_left (List.mem_append_left _)
    · exact (h'.identities x hx).imp (List.mem_append_right _) (isNew_of_keeps h.keeps)
  keeps := by
    rw [List.flatMap_cons]
    exact (h.keeps.mono (fun _ hid hp => hid (List.mem_append_left _ hp)) fun _ h => h).trans
      (h'.keeps.mono (fun _ hid hr => hid (List.mem_append_right _ hr)) fun _ h => h)

end Turned

/-- Giving a node another row changes no other node, and no row. -/
theorem withChildren_keeps (s : Store) (id : NodeId) (items : List Item) :
    Keeps (· ≠ id) (fun _ => True) s (s.withChildren id items) where
  nodes_le := by simp [withChildren, setField, newRow]
  rows_le := by simp [withChildren, setField, newRow]
  node other hother n hn := by
    rw [(withChildren_changesOnlyChildren s id items).node other hother, hn]
  row row _ xs hxs := (withChildren_changesOnlyChildren s id items).row row xs hxs

/-- A node with a row of its own for other trees holds them as its children. -/
theorem holds_withChildren {s : Store} {k : Kind} {before after : Entries Value} {id : NodeId}
    {row : RowId} {parts : List Held} (hk : k ≠ .stopSignal)
    (hbefore : before.has "children" = false) (hafter : after.has "children" = false)
    (hnode : s.node? id =
      some ⟨k, plainFields before ++ ("children", .row row) :: plainFields after⟩)
    (hparts : ∀ p ∈ parts, Holds s p) (hnodup : (parts.flatMap Held.identities).Nodup)
    (hid : Identity.node id ∉ parts.flatMap Held.identities) :
    Turned s (s.withChildren id (parts.map Held.item))
      ([.node id] ++ parts.flatMap Held.identities)
      [⟨.node k (before ++ ("children", .list (parts.map Held.tree)) :: after), .node id,
        .node id :: .row ⟨s.rows.size⟩ :: parts.flatMap Held.identities⟩] := by
  have hkeeps := withChildren_keeps s id (parts.map Held.item)
  have hchildren := hasChildren_withChildren ⟨_, hnode⟩ (parts.map Held.item)
  -- the node is changed in one field, so it is a branch again, with the new row
  have hchanged : (s.withChildren id (parts.map Held.item)).node? id =
      some ⟨k, plainFields before ++ ("children", .row ⟨s.rows.size⟩) :: plainFields after⟩ := by
    rw [node?_withChildren_self hnode,
      Entries.put_between _ (by rwa [has_plainFields]) (by rwa [has_plainFields])]
    rfl
  have hall : (Identity.node id :: .row ⟨s.rows.size⟩ :: parts.flatMap Held.identities).Nodup := by
    refine List.nodup_cons.mpr ⟨fun h => ?_, List.nodup_cons.mpr ⟨fun h => ?_, hnodup⟩⟩
    · exact hid ((List.mem_cons.mp h).resolve_left (by simp))
    · obtain ⟨p, hp, hx⟩ := List.mem_flatMap.mp h
      exact (hparts p hp).not_isNew _ hx (Nat.le_refl s.rows.size)
  refine ⟨List.forall_mem_singleton.mpr (.branch hk hbefore hafter hchanged hchildren.2
    (fun p hp => (hparts p hp).keep hkeeps (fun other hother => ?_) fun _ _ => trivial) hall),
    by simpa using hall, ?_, hkeeps.mono (fun other hother heq => ?_) fun _ h => h⟩
  · rintro rfl
    exact hid (List.mem_flatMap.mpr ⟨p, hp, hother⟩)
  · intro x hx
    rw [List.flatMap_cons, List.flatMap_nil, List.append_nil] at hx
    obtain rfl | hx := List.mem_cons.mp hx
    · exact .inl List.mem_cons_self
    obtain rfl | hx := List.mem_cons.mp hx
    · exact .inr (Nat.le_refl s.rows.size)
    · exact .inl (List.mem_cons_of_mem _ hx)
  · exact hother (heq ▸ List.mem_cons_self)

end Store

namespace Walk

open Store (Holds Turned KeepsAll)

variable {σ : Type} {callback : Callback σ} {f : Value → Except Fault (Option Value)}

/-- A callback answers for a tree as a function does: with nothing, with a new tree, or with a
fault. It leaves what is in the store as it is. -/
def Answers (callback : Callback σ) (f : Value → Except Fault (Option Value)) : Prop :=
  ∀ (s : Scene σ) (p : Held) (index : Option Nat) (parent : Option Item), Holds s.store p →
    match f p.tree with
    | .error e => ∃ next, outcome (resolve (callback p.item index parent)) s = (.error e, next)
    | .ok none => ∃ answer next, outcome (resolve (callback p.item index parent)) s =
        (.ok answer, next) ∧ next.store.isTruthy answer = false ∧ KeepsAll s.store next.store
    | .ok (some v) => ∃ q next, outcome (resolve (callback p.item index parent)) s =
        (.ok q.item, next) ∧ q.tree = v ∧ Holds next.store q ∧
          (∀ x ∈ q.identities, x.IsNew s.store) ∧ KeepsAll s.store next.store

/-- A run that began with a store that held a tree comes to another tree in its place, or fails. The
item stays the same but for trees for which, with whatever children, the function has something to
put in their place. -/
def Yields (f : Value → Except Fault (Option Value)) (s : Store) (p : Held) (r : Except Fault Value)
    (run : Except Fault Item × Scene σ) : Prop :=
  match r with
  | .error e => ∃ next, run = (.error e, next)
  | .ok v => ∃ q next, run = (.ok q.item, next) ∧ q.tree = v ∧
      Turned s next.store p.identities [q] ∧
      (q.item = p.item ∨ ∃ v, v.type? = p.tree.type? ∧ f v ≠ .ok none)

/-- What begins with a tree that came in the place of another began with that one. -/
theorem Yields.of_turned {s s' : Store} {p q : Held} {r : Except Fault Value}
    {run : Except Fault Item × Scene σ} (h : Yields f s' q r run)
    (hturned : Turned s s' p.identities [q]) (hitem : q.item = p.item)
    (htype : q.tree.type? = p.tree.type?) : Yields f s p r run := by
  cases r with
  | error e => exact h
  | ok v =>
    obtain ⟨q', next, hrun, hv, hq', hroot⟩ := h
    refine ⟨q', next, hrun, hv, hturned.trans ?_ (List.Subset.refl _) (List.nil_subset _), ?_⟩
    · rwa [List.nil_append, List.flatMap_cons, List.flatMap_nil, List.append_nil]
    · rwa [hitem, htype] at hroot

/-- The call for a node comes to what is put in its place, or to the node. -/
theorem yields_answerFor (hcallback : Answers callback f) {s : Scene σ} {p : Held}
    (hp : Holds s.store p) (index : Option Nat) (parent : Option Item) :
    Yields f s.store p (do return (← f p.tree).getD p.tree)
      (outcome (answerFor callback ⟨p.item, index, parent⟩) s) := by
  have hanswer := hcallback s p index parent hp
  cases hf : f p.tree with
  | error e =>
    rw [hf] at hanswer
    obtain ⟨next, hrun⟩ := hanswer
    exact ⟨next, by rw [answerFor, outcome_bind, hrun]⟩
  | ok v? =>
    rw [hf] at hanswer
    -- without an answer the node itself is kept, else the answer takes its place
    cases v? with
    | none =>
      obtain ⟨answer, next, hrun, hfalse, hkeeps⟩ := hanswer
      refine ⟨p, next, ?_, rfl, .of_keepsAll hp hkeeps, .inl rfl⟩
      rw [answerFor, outcome_bind_ok hrun, outcome_getStore_bind, hfalse]
      rfl
    | some v =>
      obtain ⟨q, next, hrun, rfl, hq, hnew, hkeeps⟩ := hanswer
      refine ⟨q, next, ?_, rfl, .of_isNew hq hnew hkeeps, .inr ⟨p.tree, rfl, by simp [hf]⟩⟩
      rw [answerFor, outcome_bind_ok hrun, outcome_getStore_bind, hq.isTruthy]
      rfl

/-- A transform with some limit comes to the tree that rewriting comes to. -/
def Realises (callback : Callback σ) (f : Value → Except Fault (Option Value)) (limit : Nat) :
    Prop :=
  ∀ (s : Scene σ) (p : Held) (index : Option Nat) (parent : Option Item), Holds s.store p →
    Yields f s.store p (rewriteWithin f limit p.tree)
      (outcome (transformNode callback false limit p.item index parent) s)

/-- A run through children of which a store held the trees comes to other trees in their place, or
fails. -/
def YieldsAll (s : Store) (old : List Identity) (r : Except Fault (List Value))
    (run : Except Fault (List Item) × Scene σ) : Prop :=
  match r with
  | .error e => ∃ next, run = (.error e, next)
  | .ok vs => ∃ parts next, run = (.ok (parts.map Held.item), next) ∧
      parts.map Held.tree = vs ∧ Turned s next.store old parts

/-- The loop through the children comes to the children that rewriting comes to. The `rest` of them
starts at index `k` of the row. -/
theorem realises_mapM {limit : Nat} (hlimit : Realises callback f limit) (id : NodeId) {row : RowId}
    {items : List Item} : ∀ (rest : List Held) (k : Nat) (s : Scene σ),
      s.store.row? row = some items → (∀ j p, rest[j]? = some p → items[k + j]? = some p.item) →
      (∀ p ∈ rest, Holds s.store p) → (rest.flatMap Held.identities).Nodup →
      YieldsAll s.store (rest.flatMap Held.identities)
        ((rest.map Held.tree).mapM (rewriteWithin f limit))
        (outcome ((List.range' k rest.length).mapM (transformChild callback false limit id row)) s)
  | [], _, s, _, _, _, _ => ⟨[], s, rfl, rfl, .nil _⟩
  | p :: rest, k, s, hrow, hitems, hholds, hnodup => by
    have hp : Holds s.store p := hholds p List.mem_cons_self
    have hrest : ∀ r ∈ rest, Holds s.store r := fun r hr => hholds r (List.mem_cons_of_mem _ hr)
    have hitem : items[k]? = some p.item := hitems 0 p rfl
    have hchild : outcome (transformChild callback false limit id row k) s =
        outcome (transformNode callback false limit p.item (some k) (some (.node id))) s := by
      rw [transformChild, outcome_bind_ok (outcome_itemAt s hrow hitem)]
    have hone := hlimit s p (some k) (some (.node id)) hp
    rw [← hchild] at hone
    rw [List.length_cons, List.range'_succ, List.mapM_cons, List.map_cons, List.mapM_cons]
    cases hv : rewriteWithin f limit p.tree with
    | error e =>
      rw [hv] at hone
      obtain ⟨next, hrun⟩ := hone
      exact ⟨next, by rw [outcome_bind, hrun]⟩
    | ok v =>
      rw [hv] at hone
      obtain ⟨q, next, hrun, rfl, hturned, -⟩ := hone
      -- the other children wait in the store, and none of them is touched by the first
      have htail := realises_mapM hlimit id rest (k + 1) next (hturned.keeps.row row trivial _ hrow)
        (fun j r hr => by rw [Nat.add_right_comm, Nat.add_assoc]; exact hitems (j + 1) r hr)
        (hturned.waiting hrest hnodup)
        (by rw [List.flatMap_cons, List.nodup_append] at hnodup; exact hnodup.2.1)
      rw [outcome_bind_ok hrun, Except.ok_bind, outcome_bind]
      cases hvs : (rest.map Held.tree).mapM (rewriteWithin f limit) with
      | error e =>
        rw [hvs] at htail
        obtain ⟨last, hlast⟩ := htail
        exact ⟨last, by rw [hlast]⟩
      | ok vs =>
        rw [hvs] at htail
        obtain ⟨parts, last, hlast, rfl, hparts⟩ := htail
        exact ⟨q :: parts, last, by rw [hlast]; rfl, rfl, hturned.cons hrest hnodup hparts⟩

/-- A node without children comes to what is put in its place, or stays. -/
theorem realises_leaf (hcallback : Answers callback f) {limit : Nat} {s : Scene σ} {p : Held}
    (hp : Holds s.store p) (hrow : s.store.childRow? p.item = none)
    (htree : p.tree.children? = none) (index : Option Nat) (parent : Option Item) :
    Yields f s.store p (rewriteWithin f (limit + 1) p.tree)
      (outcome (transformNode callback false (limit + 1) p.item index parent) s) := by
  have hrun : outcome (transformNode callback false (limit + 1) p.item index parent) s =
      outcome (answerFor callback ⟨p.item, index, parent⟩) s := by
    rw [transformNode, outcome_getStore_bind, hrow]
    rfl
  rw [hrun, rewriteWithin_leaf htree]
  exact yields_answerFor hcallback hp index parent

/-- A node with children is transformed after its children are, from left to right. -/
theorem outcome_transformNode_of_children {limit : Nat} {s : Scene σ} {id : NodeId} {row : RowId}
    {items : List Item} (h : s.store.HasChildren id row items) (index : Option Nat)
    (parent : Option Item) :
    outcome (transformNode callback false (limit + 1) (.node id) index parent) s =
      outcome ((List.range' 0 items.length).mapM (transformChild callback false limit id row) >>=
        finishNode callback false ⟨.node id, index, parent⟩) s := by
  rw [transformNode, outcome_getStore_bind, h.1, ← h.rowItems, ← List.range_eq_range']
  rfl

/-- A node with children comes to itself with the children that these come to, and then to what is
put in its place. -/
theorem realises_branch (hcallback : Answers callback f) {limit : Nat}
    (hlimit : Realises callback f limit) {s : Scene σ} {k : Kind} {before after : Entries Value}
    {id : NodeId} {row : RowId} {parts : List Held} (hk : k ≠ .stopSignal)
    (hbefore : before.has "children" = false) (hafter : after.has "children" = false)
    (hnode : s.store.node? id =
      some ⟨k, plainFields before ++ ("children", .row row) :: plainFields after⟩)
    (hrow : s.store.row? row = some (parts.map Held.item))
    (hparts : ∀ p ∈ parts, Holds s.store p)
    (hnodup : (.node id :: .row row :: parts.flatMap Held.identities).Nodup)
    (index : Option Nat) (parent : Option Item) :
    let tree := .node k (before ++ ("children", .list (parts.map Held.tree)) :: after)
    Yields f s.store ⟨tree, .node id, .node id :: .row row :: parts.flatMap Held.identities⟩
      (rewriteWithin f (limit + 1) tree)
      (outcome (transformNode callback false (limit + 1) (.node id) index parent) s) := by
  intro tree
  have hchildren : s.store.HasChildren id row (parts.map Held.item) :=
    Store.hasChildren_of_between (by rwa [has_plainFields]) hnode hrow
  have hitems : ∀ j p, parts[j]? = some p → (parts.map Held.item)[0 + j]? = some p.item :=
    fun j p hp => by rw [Nat.zero_add, List.getElem?_map, hp, Option.map_some]
  have hbelow : (parts.flatMap Held.identities).Nodup := (List.nodup_cons.mp
    (List.nodup_cons.mp hnodup).2).2
  have hloop := realises_mapM hlimit id parts 0 s hrow hitems hparts hbelow
  rw [outcome_transformNode_of_children hchildren, List.length_map,
    rewriteWithin_branch hbefore hafter, outcome_bind]
  cases hvs : (parts.map Held.tree).mapM (rewriteWithin f limit) with
  | error e =>
    rw [hvs] at hloop
    obtain ⟨next, hrun⟩ := hloop
    exact ⟨next, by rw [hrun]⟩
  | ok vs =>
    rw [hvs] at hloop
    obtain ⟨others, next, hrun, rfl, hturned⟩ := hloop
    rw [hrun, Except.ok_bind]
    -- the node itself is as it was, as nothing below it is the node
    have hout : Identity.node id ∉ parts.flatMap Held.identities := fun h =>
      (List.nodup_cons.mp hnodup).1 (List.mem_cons_of_mem _ h)
    have hout' : Identity.node id ∉ others.flatMap Held.identities :=
      hturned.not_mem_of_node? hout hnode
    have hset := Store.holds_withChildren hk hbefore hafter
      (hturned.keeps.node id hout _ hnode) hturned.holds hturned.nodup hout'
    have hrewritten : Turned s.store (next.store.withChildren id (others.map Held.item))
        (.node id :: .row row :: parts.flatMap Held.identities) [_] :=
      hturned.trans hset (fun x hx => List.mem_cons_of_mem _ (List.mem_cons_of_mem _ hx))
        (List.cons_subset.mpr ⟨List.mem_cons_self, List.nil_subset _⟩)
    have hanswer := yields_answerFor hcallback
      (s := next.withChildren id (others.map Held.item)) hrewritten.holds_one index parent
    exact hanswer.of_turned hrewritten rfl (Value.type?_branch _ _)

/-- A transform rewrites the tree that it is given, whatever store holds it, and fails where
rewriting fails. -/
theorem realises (hcallback : Answers callback f) (limit : Nat) : Realises callback f limit := by
  induction limit with
  | zero => exact fun s p index parent _ => ⟨s, rfl⟩
  | succ limit ih =>
    intro s p index parent hp
    cases hp with
    | leaf hk hfields hnode =>
      exact realises_leaf hcallback (.leaf hk hfields hnode) (Store.childRow?_of_plainFields hnode)
        (Value.children?_of_childless hfields) index parent
    | branch hk hbefore hafter hnode hrow hparts hnodup =>
      exact realises_branch hcallback ih hk hbefore hafter hnode hrow hparts hnodup index parent

end Walk

end NotebookTree
