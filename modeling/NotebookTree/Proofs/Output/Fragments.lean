import NotebookTree.Output.Render
import NotebookTree.Proofs.Notebook.Fragments

/-!
# Outputs with text in fragments

Two outputs whose bundles hold the same texts, in whatever fragments, cannot be told apart by asking
for what they offer, for the texts they hold, or for what is shown of them. The trees of notebooks
with the same texts have such outputs in the same places.

## Main definitions

* `nodeAt?`: the node at a place in a tree.
* `SameAnswers`: nodes that cannot be told apart.

## Main statements

* `read_fragments`: what comes of notebooks with the same texts.
-/

namespace NotebookTree

/-- The node at a place in a tree: the places among the children on the way to it. -/
def nodeAt? (v : Value) : List Nat → Option Value
  | [] => some v
  | i :: path => do nodeAt? (← (← v.children?)[i]?) path

namespace Output

/-! ## Bundles -/

section Bundles

variable {b b' : Value}

/-- The types of a bundle are the same, whatever the fragments. -/
theorem offers_alike (h : BundlesAlike b b') (t : String) : offers b' t = offers b t := by
  cases h with
  | same => rfl
  | @record es es' h =>
    have hitems : (Value.record es').items = (Value.record es).items :=
      (RecordsAlike.record h).items
    exact congrArg (fun x : Except Fault (List Value) =>
      x >>= fun names => pure (names.any (fun x => x.equals (.text t)))) hitems

/-- A payload of text is put together to the same. -/
theorem payload_alike (h : BundlesAlike b b') {t : String} (ht : Mime.isText t = true) :
    payload b' (.text t) = payload b (.text t) := by
  cases h with
  | same => rfl
  | @record es es' h =>
    have hlookup := h.lookup t
    rw [payload, payload, lookUp, lookUp, Entries.get?, Entries.get?]
    generalize List.lookup t es = o at hlookup ⊢
    generalize List.lookup t es' = o' at hlookup ⊢
    cases hlookup with
    | none => rfl
    | some hvalue =>
      obtain rfl | ⟨-, hsame⟩ := hvalue
      · rfl
      · exact congrArg Except.ok (hsame.normalize ht)

/-- Bundles that are alike have the same payload under a text type. -/
theorem payload?_alike (h : BundlesAlike b b') {t : String} (ht : Mime.isText t = true) :
    payload? b' t = payload? b t := by
  rw [payload?, payload?, payload_alike h ht]

/-- So has the first of several text types. -/
theorem firstPayload_alike (h : BundlesAlike b b') {ts : List String}
    (hts : ∀ t ∈ ts, Mime.isText t = true) : firstPayload b' ts = firstPayload b ts := by
  induction ts with
  | nil => rfl
  | cons t ts ih =>
    rw [firstPayload, firstPayload, payload?_alike h (hts t (List.mem_cons_self ..)),
      ih fun u hu => hts u (List.mem_cons_of_mem t hu)]

/-- The types that the richest text is looked for in are types of text. -/
theorem isText_of_mem : ∀ t ∈ ["text/html", "text/markdown", "text/plain"],
    Mime.isText t = true := by decide

/-- Bundles that are alike are rendered alike: only text types are rendered. -/
theorem renderBundle_alike (h : BundlesAlike b b') (settings : Value) :
    renderBundle settings b' = renderBundle settings b := by
  rw [renderBundle, renderBundle, payload?_alike h (isText_of_mem "text/html" (by simp)),
    payload?_alike h (isText_of_mem "text/markdown" (by simp)),
    payload?_alike h (isText_of_mem "text/plain" (by simp))]

end Bundles

/-! ## Outputs -/

/-- Nodes that are the same but for their children and the payloads in their bundles. -/
def SeenAlike : Value → Value → Prop :=
  NodesAlike fun name v v' => (name = "data" ∧ BundlesAlike v v') ∨ name = "children"

section Seen

variable {n n' : Value}

/-- What is asked of both nodes that is not about their bundles or children. -/
theorem SeenAlike.field_eq (h : SeenAlike n n') {name : String}
    (hname : name ≠ "data" ∧ name ≠ "children") : n'.field name = n.field name :=
  NodesAlike.field_eq h fun _ _ hR => hR.elim (fun hdata => hname.1 hdata.1) hname.2

/-- Outputs that are seen alike have the same types. -/
theorem SeenAlike.hasType (h : SeenAlike n n') (word : String) :
    n'.hasType word = n.hasType word := by
  have htype : n'.type? = n.type? := NodesAlike.attribute_eq h (by simp)
  rw [Value.hasType, Value.hasType, htype]

/-- Both are rich or neither is. -/
theorem SeenAlike.isRich (h : SeenAlike n n') : isRich n' = isRich n := by
  rw [Output.isRich, Output.isRich, h.hasType, h.hasType]

/-- The bundles of both. -/
theorem SeenAlike.bundle (h : SeenAlike n n') :
    Except.Alike BundlesAlike (n.field "data") (n'.field "data") := by
  refine (NodesAlike.field h "data").mono fun b b' hb => ?_
  obtain rfl | ⟨-, hb⟩ | hchildren := hb
  · exact .same _
  · exact hb
  · exact absurd hchildren (by decide)

/-- Both offer a type or neither does. -/
theorem SeenAlike.hasPayload (h : SeenAlike n n') (t : String) :
    hasPayload n' t = hasPayload n t := by
  rw [Output.hasPayload, Output.hasPayload, h.isRich,
    h.bundle.bind_eq fun b b' hb => offers_alike hb t]

/-- Both offer a type of a kind or neither does. -/
theorem SeenAlike.hasKindOf (h : SeenAlike n n') (test : Mime.Test) :
    hasKindOf test n' = hasKindOf test n := by
  rw [Output.hasKindOf, Output.hasKindOf, h.isRich,
    h.bundle.bind_eq fun b b' (hb : BundlesAlike b b') => by rw [RecordsAlike.items hb]]

/-- Both offer the same types. -/
theorem SeenAlike.types (h : SeenAlike n n') : types n' = types n := by
  rw [Output.types, Output.types, h.hasType, h.hasType, h.isRich, h.bundle.bind_eq]
  intro b b' hb
  cases hb with
  | same => rfl
  | record hes => exact congrArg Except.ok hes.names

/-- The best text is the same for both. -/
theorem SeenAlike.bestText (h : SeenAlike n n') : bestText n' = bestText n := by
  rw [Output.bestText, Output.bestText, h.hasType, h.hasType, h.isRich, h.field_eq (by simp),
    h.field_eq (by simp), h.bundle.bind_eq fun b b' hb => firstPayload_alike hb isText_of_mem]

/-- Both are rendered alike as streams. -/
theorem SeenAlike.renderStream (h : SeenAlike n n') (settings : Value) (wrapper : String) :
    renderStream settings n' wrapper = renderStream settings n wrapper := by
  rw [Output.renderStream, Output.renderStream, h.field_eq (by simp), h.field_eq (by simp)]

/-- Both are rendered alike as rich outputs. -/
theorem SeenAlike.renderRich (h : SeenAlike n n') (settings : Value) (wrapper : String) :
    renderRich settings n' wrapper = renderRich settings n wrapper := by
  rw [Output.renderRich, Output.renderRich, h.hasType, h.bundle.bind_eq]
  intro b b' hb
  rw [renderBundle_alike hb]

/-- Both are rendered alike as errors. -/
theorem SeenAlike.renderError (h : SeenAlike n n') (settings : Value) (wrapper : String) :
    renderError settings n' wrapper = renderError settings n wrapper := by
  rw [Output.renderError, Output.renderError, h.field_eq (by simp), h.field_eq (by simp),
    h.field_eq (by simp)]

/-- Both are rendered alike. -/
theorem SeenAlike.render (h : SeenAlike n n') (settings : Value) :
    render n' settings = render n settings := by
  have htype : n'.type? = n.type? := NodesAlike.attribute_eq h (by simp)
  rw [Output.render, Output.render]
  simp only [h.hasType, h.isRich, h.renderStream, h.renderRich, h.renderError, htype]

end Seen

/-- Nodes that cannot be told apart by asking what they offer, by taking a text out of them, or by
showing them. -/
structure SameAnswers (n n' : Value) : Prop where
  hasHtml : hasHtml n' = hasHtml n
  hasMarkdown : hasMarkdown n' = hasMarkdown n
  hasText : hasText n' = hasText n
  hasImage : hasImage n' = hasImage n
  hasWidget : hasWidget n' = hasWidget n
  hasVisualization : hasVisualization n' = hasVisualization n
  hasType (name : Value) : hasType n' name = hasType n name
  types : types n' = types n
  bestType : bestType n' = bestType n
  extract (t : String) (ht : Mime.isText t = true) :
    (do payload? (← n'.field "data") t) = (do payload? (← n.field "data") t)
  dataOf (t : String) (ht : Mime.isText t = true) : dataOf n' (.text t) = dataOf n (.text t)
  bestText : bestText n' = bestText n
  render (settings : Value) : render n' settings = render n settings

/-- Both give the same answers to all that can be asked of an output. -/
theorem SeenAlike.sameAnswers {n n' : Value} (h : SeenAlike n n') : SameAnswers n n' where
  hasHtml := h.hasPayload _
  hasMarkdown := h.hasPayload _
  hasText := by rw [hasText, hasText, h.hasType, h.hasPayload]
  hasImage := h.hasKindOf _
  hasWidget := h.hasKindOf _
  hasVisualization := h.hasKindOf _
  hasType := fun name => by rw [Output.hasType, Output.hasType, h.types]
  types := h.types
  bestType := by rw [bestType, bestType, h.types]
  extract := fun t ht => h.bundle.bind_eq fun b b' hb => payload?_alike hb ht
  dataOf := fun t ht => h.bundle.bind_eq fun b b' hb => payload_alike hb ht
  bestText := h.bestText
  render := h.render

/-! ## Trees -/

section Trees

variable {Q S : Value → Value → Prop} {v v' : Value}

/-- The children of nodes that are the same but for their children. -/
theorem children_alike (hQ : ∀ c, Q c c)
    (h : NodesAlike (fun name w w' => name = "children" ∧ ListsAlike Q w w') v v') :
    Option.Rel (List.Forall₂ Q) v.children? v'.children? := by
  have hrefl : ∀ cs : List Value, List.Forall₂ Q cs cs := fun cs =>
    List.forall₂_same.mpr fun c _ => hQ c
  have hattribute := h.attribute "children"
  rw [Value.children?, Value.children?]
  generalize v.attribute? "children" = o at hattribute ⊢
  generalize v'.attribute? "children" = o' at hattribute ⊢
  cases hattribute with
  | none => exact .none
  | @some w w' hvalue =>
    obtain rfl | ⟨-, hlists⟩ := hvalue
    · cases w' <;> first | exact .none | exact .some (hrefl _)
    · cases hlists with
      | list hall => exact .some hall

/-- What is in the same place of two lists with related items. -/
theorem getElem?_alike {cs cs' : List Value} (h : List.Forall₂ Q cs cs') (i : Nat) :
    Option.Rel Q cs[i]? cs'[i]? := by
  induction h generalizing i with
  | nil => exact .none
  | cons hfirst _ ih =>
    cases i with
    | zero => exact .some hfirst
    | succ i => exact ih i

/-- What holds of all places below the children holds of those below the nodes. -/
theorem nodeAt?_alike (hQ : ∀ c, Q c c)
    (hS : NodesAlike (fun name w w' => name = "children" ∧ ListsAlike Q w w') v v' → S v v')
    (hbelow : ∀ c c', Q c c' → ∀ path, Option.Rel S (nodeAt? c path) (nodeAt? c' path))
    (h : NodesAlike (fun name w w' => name = "children" ∧ ListsAlike Q w w') v v')
    (path : List Nat) : Option.Rel S (nodeAt? v path) (nodeAt? v' path) := by
  cases path with
  | nil => exact .some (hS h)
  | cons i path =>
    have hchildren := children_alike hQ h
    rw [nodeAt?, nodeAt?]
    generalize v.children? = o at hchildren ⊢
    generalize v'.children? = o' at hchildren ⊢
    cases hchildren with
    | none => exact .none
    | @some cs cs' hall =>
      -- the children at one place are both there or both missing, and the rest of the path goes on
      -- below
      have hitem := getElem?_alike hall i
      change Option.Rel S (cs[i]?.bind (nodeAt? · path)) (cs'[i]?.bind (nodeAt? · path))
      generalize cs[i]? = c at hitem ⊢
      generalize cs'[i]? = c' at hitem ⊢
      cases hitem with
      | none => exact .none
      | some hc => exact hbelow _ _ hc path

end Trees

/-- What is in the same place of two outputs that are the same but for their bundles. -/
theorem seenAlike_nodeAt?_output {v v' : Value} (h : Notebook.OutputNodesAlike v v')
    (path : List Nat) : Option.Rel SeenAlike (nodeAt? v path) (nodeAt? v' path) := by
  cases path with
  | nil => exact .some (h.mono fun _ _ _ hR => .inl hR)
  | cons i path =>
    have hchildren : v'.children? = v.children? := by
      rw [Value.children?, Value.children?, NodesAlike.attribute_eq h (by simp)]
    rw [nodeAt?, nodeAt?, hchildren]
    exact rel_refl .same _

/-- At each place cells that are alike have nodes that are seen alike. -/
theorem seenAlike_nodeAt?_cell {v v' : Value} (h : Notebook.CellNodesAlike v v')
    (path : List Nat) : Option.Rel SeenAlike (nodeAt? v path) (nodeAt? v' path) :=
  nodeAt?_alike .same (fun h => h.mono fun _ _ _ hR => .inr hR.1)
    (fun _ _ => seenAlike_nodeAt?_output) h path

/-- What is in the same place of trees that are the same but for the bundles of outputs. -/
theorem seenAlike_nodeAt? {v v' : Value} (h : Notebook.TreesAlike v v') (path : List Nat) :
    Option.Rel SeenAlike (nodeAt? v path) (nodeAt? v' path) :=
  nodeAt?_alike .same (fun h => h.mono fun _ _ _ hR => .inr hR.1)
    (fun _ _ => seenAlike_nodeAt?_cell) h path

/-- Notebooks with the same texts, in whatever fragments and from whatever source in the same place,
are read with the same entries in the log. Either both come to the same fault, or both to trees that
are the same but for the payloads in bundles, which are the same texts. What is in a place of one
tree then cannot be told apart from what is there in the other. -/
theorem read_fragments [Markdown.Engine] {files files' : Folder} {source source' : Notebook.Source}
    {nb nb' : Value} {path : Option String} (settings : Value)
    (hnb : Notebook.dataOf files source = .ok (nb, path))
    (hnb' : Notebook.dataOf files' source' = .ok (nb', path))
    (h : Notebook.NotebooksAlike nb nb') :
    (∃ fault log, (Notebook.read files settings source).outcome = (.error fault, log) ∧
        (Notebook.read files' settings source').outcome = (.error fault, log)) ∨
      ∃ root root' log, (Notebook.read files settings source).outcome = (.ok root, log) ∧
        (Notebook.read files' settings source').outcome = (.ok root', log) ∧
        Notebook.TreesAlike root root' ∧
        ∀ place, Option.Rel SameAnswers (nodeAt? root place) (nodeAt? root' place) := by
  rcases (Notebook.alike_read settings hnb hnb' h).outcome_cases with
    hfault | ⟨root, root', log, hroot, hroot', htrees⟩
  · exact .inl hfault
  · refine .inr ⟨root, root', log, hroot, hroot', htrees, fun place => ?_⟩
    have hseen := seenAlike_nodeAt? htrees place
    -- at each place both trees have a node or neither has
    generalize nodeAt? root place = o at hseen ⊢
    generalize nodeAt? root' place = o' at hseen ⊢
    cases hseen with
    | none => exact .none
    | some h => exact .some h.sameAnswers

/-- A notebook with a code cell that has a stream and a display. -/
def shownNotebook (source text markup : Value) : Value :=
  .record [("cells", .list [.record [("cell_type", .text "code"), ("source", source),
    ("outputs", .list [.record [("output_type", .text "stream"), ("text", text)],
      .record [("output_type", .text "display_data"),
        ("data", .record [("text/html", markup)])]])]])]

/-- Notebooks with the same texts, spelled whole or in parts, are alike. -/
theorem notebooksAlike_shownNotebook {source source' text text' markup markup' : Value}
    (hsource : SameText source source') (htext : SameText text text')
    (hmarkup : SameText markup markup') :
    Notebook.NotebooksAlike (shownNotebook source text markup)
      (shownNotebook source' text' markup') := by
  have hstream : Notebook.OutputsAlike
      (.record [("output_type", .text "stream"), ("text", text)])
      (.record [("output_type", .text "stream"), ("text", text')]) :=
    .record (.cons ⟨rfl, .inl rfl⟩ (.cons ⟨rfl, .inr (.inl ⟨rfl, htext⟩)⟩ .nil))
  have hbundle : BundlesAlike (.record [("text/html", markup)])
      (.record [("text/html", markup')]) :=
    .record (.cons ⟨rfl, .inr ⟨isText_of_mem "text/html" (by simp), hmarkup⟩⟩ .nil)
  have hdisplay : Notebook.OutputsAlike
      (.record [("output_type", .text "display_data"), ("data", .record [("text/html", markup)])])
      (.record [("output_type", .text "display_data"),
        ("data", .record [("text/html", markup')])]) :=
    .record (.cons ⟨rfl, .inl rfl⟩ (.cons ⟨rfl, .inr (.inr ⟨rfl, hbundle⟩)⟩ .nil))
  -- entry by entry: only the three texts differ, and each stands where pieces are joined
  refine .record (.cons ⟨rfl, .inr ⟨rfl, .list (.cons (.record ?_) .nil)⟩⟩ .nil)
  exact .cons ⟨rfl, .inl rfl⟩ (.cons ⟨rfl, .inr (.inl ⟨rfl, hsource⟩)⟩
    (.cons ⟨rfl, .inr (.inr ⟨rfl, .list (.cons hstream (.cons hdisplay .nil))⟩)⟩ .nil))

/-- Each of its texts as a whole. -/
def wholeNotebook : Value := shownNotebook (.text "f()") (.text "ab") (.text "<b>1</b>")

/-- Each of its texts in pieces. -/
def splitNotebook : Value :=
  shownNotebook (.list [.text "f", .text "()"]) (.list [.text "", .text "ab"])
    (.list [.text "<b>", .text "1</b>"])

/-- The notebook in parts is alike the whole one. -/
theorem notebooksAlike_splitNotebook : Notebook.NotebooksAlike wholeNotebook splitNotebook :=
  notebooksAlike_shownNotebook ⟨_, .text _, .fragments ["f", "()"]⟩
    ⟨_, .text _, .fragments ["", "ab"]⟩ ⟨_, .text _, .fragments ["<b>", "1</b>"]⟩

/-- The displays of both notebooks cannot be told apart. -/
theorem read_fragments_split :
    ∃ root root' n n', (Notebook.read [] .null (.data wholeNotebook)).outcome.1 = .ok root ∧
      (Notebook.read [] .null (.data splitNotebook)).outcome.1 = .ok root' ∧
      nodeAt? root [0, 2] = some n ∧ nodeAt? root' [0, 2] = some n' ∧ SameAnswers n n' := by
  have hwhole : Notebook.dataOf [] (.data wholeNotebook) = .ok (wholeNotebook, none) := rfl
  have hsplit : Notebook.dataOf [] (.data splitNotebook) = .ok (splitNotebook, none) := rfl
  -- that there is a node at the place is computed, and the rest follows from the theorem
  have hshown : ((Notebook.read [] .null (.data wholeNotebook)).outcome.1.toOption.bind
      (nodeAt? · [0, 2])).isSome := by decide +kernel
  rcases read_fragments .null hwhole hsplit notebooksAlike_splitNotebook with
    ⟨fault, log, hfault, -⟩ | ⟨root, root', log, hroot, hroot', -, hplaces⟩
  · rw [hfault] at hshown
    cases hshown
  · rw [hroot] at hshown
    obtain ⟨n, hn⟩ : ∃ n, nodeAt? root [0, 2] = some n := Option.isSome_iff_exists.mp hshown
    have hplace := hplaces [0, 2]
    rw [hn] at hplace
    generalize hn' : nodeAt? root' [0, 2] = o at hplace
    cases hplace with
    | some h =>
      exact ⟨root, root', n, _, congrArg Prod.fst hroot, congrArg Prod.fst hroot', hn, hn', h⟩

end Output

end NotebookTree
