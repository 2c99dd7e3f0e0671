import NotebookTree.Command.Run
import NotebookTree.Proofs.Notebook.MarkdownCells
import NotebookTree.Proofs.Walk.CellFilter

/-!
# The rules for cells on notebooks

What a notebook becomes when it is read is a root with cells, whatever it says, so that the rules
for cells, applied in any order and as often as one likes, come to the filter that they are.

## Main definitions

* `Notebook.HasFiltered`: what rules have made of a notebook in a store.
* `Command.treeOf`: the tree that a walk of the command ends with.

## Main results

* `Notebook.cellRules_filter`: the rules come to the filter, in the library and in the command.
-/

namespace NotebookTree

open Store (Holds Reseats)
open Walk (outcome outcome_bind_ok)

namespace Markdown

/-- Every node below the element of a token is the element of that token or of one below it. -/
theorem exists_token_of_below {P : Entries Value → Prop} {t : Token} (h : t.All P) {n : Value}
    (hn : Below n t.toElement) :
    ∃ fields children, n = (Token.mk fields children).toElement ∧ P fields := by
  induction h with
  | @mk fields children here below ih =>
    cases hn with
    | root => exact ⟨fields, children, rfl, here⟩
    | child hc hn =>
      rw [children?_toElement] at hc
      cases children with
      | none => cases hc
      | some ts =>
        rw [Option.map_some, Option.getD_some, elementsOf_eq_map, List.mem_map] at hc
        obtain ⟨t, ht, rfl⟩ := hc
        exact ih ts rfl t ht hn

section Engine

variable [Engine] [NamedEngine]

/-- Every node among the elements of a document is the element of a token with its type. -/
theorem exists_named_of_below {settings text : Value} {elements : List Value}
    (h : elementsFor settings text = .ok elements) {v n : Value} (hv : v ∈ elements)
    (hn : Below n v) :
    ∃ fields children, n = (Token.mk fields children).toElement ∧ HasTokenType fields := by
  obtain ⟨extensions, -, h⟩ := Except.bind_eq_ok.mp h
  obtain ⟨ts, hts, h⟩ := Except.bind_eq_ok.mp h
  obtain rfl := Except.ok.inj h
  cases hread : Engine.tokens extensions text with
  | error cause => rw [hread] at hts; cases hts
  | ok ts' =>
    rw [hread] at hts
    obtain rfl := Except.ok.inj hts
    rw [elementsOf_eq_map, List.mem_map] at hv
    obtain ⟨t, ht, rfl⟩ := hv
    exact exists_token_of_below (NamedEngine.named hread t ht) hn

/-- The elements of a document have types of tokens. -/
theorem freeOf_elements {word : String} (hword : word ∉ tokenTypes) {settings text : Value}
    {elements : List Value} (h : elementsFor settings text = .ok elements) :
    ∀ v ∈ elements, FreeOf word v := by
  intro v hv n hn
  obtain ⟨fields, children, rfl, type, htype, hmem⟩ := exists_named_of_below h hv hn
  exact ⟨type, by rw [type?_toElement, htype, Option.getD_some], fun heq => hword (heq ▸ hmem)⟩

end Engine

end Markdown

namespace Notebook

variable {settings language : Value}

/-! ## Cells -/

/-- An output is free of every type that is no type of output. -/
theorem freeOf_output {output node : Value} (h : OutputOf output node) {word : String}
    (hword : word ∉ Value.outputTypes) : FreeOf word node := by
  have hne : ∀ type ∈ Value.outputTypes, type ≠ word := fun type hmem heq => hword (heq ▸ hmem)
  cases h with
  | stream => exact freeOf_leaf rfl rfl rfl (hne _ (by decide))
  | displayData => exact freeOf_leaf rfl rfl rfl (hne _ (by decide))
  | executeResult => exact freeOf_leaf rfl rfl rfl (hne _ (by decide))
  | error => exact freeOf_leaf rfl rfl rfl (hne _ (by decide))

section Engine

variable [Markdown.Engine] [Markdown.NamedEngine]

/-- The content of a cell of Markdown is free of every type but its own two and those of tokens. -/
theorem freeOf_content {source : String} {content : Value}
    (h : ContentOf settings source content) {word : String} (hword : word ∉ Markdown.tokenTypes)
    (hne : word ≠ "markdown") (hne' : word ≠ "parsedMarkdown") : FreeOf word content := by
  cases h with
  | unread => exact freeOf_leaf rfl rfl rfl hne.symm
  | read _ _ _ parsed =>
    exact freeOf_branch rfl rfl hne'.symm (Markdown.freeOf_elements hword parsed)

/-- Below a cell there is neither a root nor a cell. -/
theorem freeOf_below_cell {v c : Value} (h : CellOf settings language v c) :
    ∀ child ∈ c.children?.getD [], FreeOf "root" child ∧ FreeOf "cell" child := by
  cases h with
  | code type listed outputs =>
    refine List.forall_mem_cons.mpr ⟨⟨freeOf_leaf rfl rfl rfl (by decide),
      freeOf_leaf rfl rfl rfl (by decide)⟩, fun n hn => ?_⟩
    obtain ⟨output, -, hof⟩ := exists_of_forall₂_of_mem outputs hn
    exact ⟨freeOf_output hof (by decide), freeOf_output hof (by decide)⟩
  | markdown type holds =>
    exact List.forall_mem_singleton.mpr
      ⟨freeOf_content holds (by decide) (by decide) (by decide),
        freeOf_content holds (by decide) (by decide) (by decide)⟩
  | other =>
    exact List.forall_mem_singleton.mpr
      ⟨freeOf_leaf rfl rfl rfl (by decide), freeOf_leaf rfl rfl rfl (by decide)⟩

/-- No node in a cell has the type of the root. -/
theorem freeOf_root_of_cellOf {v c : Value} (h : CellOf settings language v c) :
    FreeOf "root" c := by
  have htype : c.type? = some (.text "cell") := by cases h <;> rfl
  exact freeOf_of_children htype (by decide) fun d hd => (freeOf_below_cell h d hd).1

omit [Markdown.NamedEngine] in
/-- A cell has a first child of which the rules can tell whether it says something. -/
theorem legible_cell {v c : Value} (h : CellOf settings language v c) : c.Legible := by
  cases h with
  | code => exact ⟨_, _, rfl, fun _ => ⟨_, rfl⟩, fun h => (by cases h), fun h => (by cases h)⟩
  | markdown type holds =>
    cases holds with
    | unread =>
      exact ⟨_, _, rfl, fun h => (by cases h), fun _ _ => ⟨_, rfl⟩, fun _ h => (by cases h)⟩
    | read => exact ⟨_, _, rfl, fun h => (by cases h), fun _ h => (by cases h), fun _ _ => ⟨_, rfl⟩⟩
  | other => exact ⟨_, _, rfl, fun h => (by cases h), fun h => (by cases h), fun h => (by cases h)⟩

/-- A cell is what the rules for cells look at when its tags are well formed. -/
theorem isCell_of_cellOf {v c : Value} (h : CellOf settings language v c)
    (htagged : c.isWellTagged = true) : c.IsCell where
  type := by cases h <;> rfl
  legible := legible_cell h
  tagged := htagged
  below := freeOf_below_cell h

end Engine

/-! ## Notebooks -/

/-- What rules have made of a notebook that was loaded at an item of a store: it is seen as they
leave it, the cells that are left are those that were loaded, and no node has changed but for the
row of its children. -/
structure HasFiltered (rules : List CellRule) (root : Value) (item : Item) (loaded last : Store) :
    Prop where
  view : last.view item = CellRule.filtered rules root
  nodes : ∃ id cells, item = .node id ∧ root.children? = some (cells.map Held.tree) ∧
    HoldsNotebook loaded id cells ∧ Reseats (Leaves loaded id cells rules) loaded last

section Read

variable [Markdown.Engine] [Markdown.NamedEngine] {files : Folder} {source : Source} {root : Value}
  {log : List Log.Entry}

/-- A notebook that has been read is held as one wherever it is loaded. -/
theorem exists_loaded (hread : (read files settings source).outcome = (.ok root, log))
    (htagged : ∀ c ∈ root.children?.getD [], c.isWellTagged = true) (s : Store) :
    ∃ id cells, (s.load root).1 = .node id ∧ HoldsNotebook (s.load root).2 id cells ∧
      (∀ q ∈ cells, q.tree.levels < root.levels) ∧
      ∀ rules last, Reseats (Leaves (s.load root).2 id cells rules) (s.load root).2 last →
        HasFiltered rules root (s.load root).1 (s.load root).2 last := by
  have htree := isTree_of_read hread
  obtain ⟨ids, hholds, -, -⟩ := Store.load_holds htree s
  obtain ⟨options, es, path, entries, language, trees, -, -, -, -, rfl, hshapes, -⟩ :=
    read_cases hread
  -- reading gives cells of known shape, and their tags are well formed by assumption
  have hcells : ∀ c ∈ trees, c.IsCell := fun c hc => by
    obtain ⟨v, -, hof⟩ := exists_of_forall₂_of_mem hshapes hc
    exact isCell_of_cellOf hof (htagged c hc)
  obtain ⟨id, cells, hitem, rfl, hnotebook, hviews⟩ := exists_holdsNotebook hholds rfl rfl hcells
  refine ⟨id, cells, hitem, hnotebook, fun q hq => ?_, fun rules last hlast =>
    ⟨hviews rules last hlast, id, cells, hitem, rfl, hnotebook, hlast⟩⟩
  exact htree.levels_lt (List.mem_map_of_mem hq)

end Read

end Notebook

/-! ## The command -/

namespace Command

/-- The tree that a walk of the command ends with. -/
def treeOf (w : Walk Unit Item) : Except Fault Value :=
  let (result, scene) := w.run {} ()
  result.map scene.store.view

/-- The rules of a request are rules for cells. -/
theorem TreeRequest.isFilter_of_mem_rules {r : TreeRequest} {rule : CellRule}
    (h : rule ∈ r.rules) : rule.isFilter = true := by
  simp only [rules, List.mem_append] at h
  obtain ((h | h) | h) | h := h <;> split at h <;> simp at h <;> subst h <;> rfl

/-- A request for a tree comes to its rules, when its notebook has been read and loaded. -/
theorem TreeRequest.outcome_treeWith [Markdown.Engine] {r : TreeRequest} {files : Folder}
    {settings root : Value} {log : List Log.Entry} (hsettings : r.settings = .ok settings)
    (hread : (Notebook.readAtPath files settings r.notebook).outcome = (.ok root, log))
    (rules : List CellRule) :
    outcome (r.treeWith rules files) ⟨{}, [], ()⟩ =
      outcome (CellRule.applyAll depthLimit rules false (Store.load {} root).1)
        ⟨(Store.load {} root).2, log, ()⟩ := by
  have hmade : outcome (Walk.ofExcept (.ok settings)) (⟨{}, [], ()⟩ : Scene Unit) =
      (.ok settings, ⟨{}, [], ()⟩) := rfl
  have hlogged : outcome (Walk.ofLogged (Notebook.readAtPath files settings r.notebook))
      ⟨{}, [], ()⟩ = (.ok root, ⟨{}, log, ()⟩) := by
    rw [Walk.outcome_ofLogged, hread]
    rfl
  rw [TreeRequest.treeWith, hsettings, outcome_bind_ok hmade, outcome_bind_ok hlogged]
  rfl

/-- The tree of a request, when its notebook has been read and loaded. -/
theorem treeOf_treeWith [Markdown.Engine] {r : TreeRequest} {files : Folder} {settings root : Value}
    {log : List Log.Entry} (hsettings : r.settings = .ok settings)
    (hread : (Notebook.readAtPath files settings r.notebook).outcome = (.ok root, log))
    (rules : List CellRule) :
    treeOf (r.treeWith rules files) =
      let (result, last) := outcome (CellRule.applyAll depthLimit rules false
        (Store.load {} root).1) ⟨(Store.load {} root).2, log, ()⟩
      result.map last.store.view := by
  show (let (result, last) := outcome (r.treeWith rules files) ⟨{}, [], ()⟩
    result.map last.store.view) = _
  rw [TreeRequest.outcome_treeWith hsettings hread]

end Command

namespace Notebook

variable {settings : Value} {files : Folder} {source : Source} {root : Value}
  {log : List Log.Entry}

/-- Transforms with rules for cells, in any order and with any repetitions, come back to the root of
a notebook that has been read, and make of it what the rules leave. -/
theorem applyAll_hasFiltered [Markdown.Engine] [Markdown.NamedEngine] {σ : Type}
    (hread : (read files settings source).outcome = (.ok root, log))
    (htagged : ∀ c ∈ root.children?.getD [], c.isWellTagged = true) {limit : Nat}
    (hlimit : root.levels ≤ limit) (reverse : Bool) {rules others : List CellRule}
    (hrules : ∀ rule ∈ rules, rule.isFilter = true)
    (hsame : ∀ rule, rule ∈ others ↔ rule ∈ rules) (s : Scene σ) :
    ∃ next, outcome (CellRule.applyAll limit others reverse (s.store.load root).1)
        { s with store := (s.store.load root).2 } = (.ok (s.store.load root).1, next) ∧
      next.own = s.own ∧
      HasFiltered rules root (s.store.load root).1 (s.store.load root).2 next.store := by
  obtain ⟨id, cells, hitem, hnotebook, hlevels, hfiltered⟩ := exists_loaded hread htagged s.store
  obtain ⟨limit, rfl⟩ : ∃ n, limit = n + 1 := by
    have hpos := (isTree_of_read hread).levels_pos
    exact ⟨limit - 1, by omega⟩
  -- no node below the root is one that a rule answers, so walking through the cells changes nothing
  have hquiet : ∀ q ∈ cells, Quiet "root" (s.store.load root).2 limit q.item := fun q hq => by
    have hlt := hlevels q hq
    exact .of_holds (hnotebook.holds q hq) (hnotebook.isCell q hq).freeOf_root (by omega)
  have hall : ∀ rule, rule ∈ rules ↔ rule ∈ others ∨ rule ∈ [] := fun rule => by simp [hsame]
  obtain ⟨next, hrun, hown, hleaves⟩ := CellRule.applyAll_leaves
    (s := { s with store := (s.store.load root).2 }) hnotebook hquiet reverse others
    (HoldsNotebook.leaves_nil _ id cells)
    (fun rule hrule => hrules rule ((hsame rule).mp hrule)) hall
  exact ⟨next, by rw [hitem, hrun], hown, hfiltered rules _ hleaves⟩

/-- The command ends with the same tree whatever the order in which it applies the rules of a
request, or how often; also when the notebook is too deep for any of them. -/
theorem treeOf_treeWith_congr {r : Command.TreeRequest} (hsettings : r.settings = .ok settings)
    (hread : (readAtPath files settings r.notebook).outcome = (.ok root, log))
    (htagged : ∀ c ∈ root.children?.getD [], c.isWellTagged = true) {others : List CellRule}
    (hsame : ∀ rule, rule ∈ others ↔ rule ∈ r.rules) :
    Command.treeOf (r.treeWith others files) = Command.treeOf (r.tree files) := by
  obtain ⟨id, cells, hitem, hnotebook, -, hfiltered⟩ := exists_loaded hread htagged {}
  have hfilters : ∀ rule ∈ others, rule.isFilter = true := fun rule hrule =>
    Command.TreeRequest.isFilter_of_mem_rules ((hsame rule).mp hrule)
  rw [Command.TreeRequest.tree, Command.treeOf_treeWith hsettings hread,
    Command.treeOf_treeWith hsettings hread, hitem]
  have hdepth : Command.depthLimit = 999 + 1 := rfl
  rw [hdepth]
  by_cases hquiet : ∀ q ∈ cells, Quiet "root" (Store.load {} root).2 999 q.item
  · -- both ways come to what the rules leave
    have hview : ∀ some : List CellRule, (∀ rule, rule ∈ r.rules ↔ rule ∈ some ∨ rule ∈ []) →
        (∀ rule ∈ some, rule.isFilter = true) → ∃ next,
          outcome (CellRule.applyAll (999 + 1) some false (.node id))
            ⟨(Store.load {} root).2, log, ()⟩ = (.ok (.node id), next) ∧
          next.store.view (.node id) = CellRule.filtered r.rules root := by
      intro some hall hsome
      obtain ⟨next, hrun, -, hleaves⟩ := CellRule.applyAll_leaves
        (s := ⟨(Store.load {} root).2, log, ()⟩) hnotebook hquiet false some
        (HoldsNotebook.leaves_nil _ id cells) hsome hall
      exact ⟨next, hrun, hitem ▸ (hfiltered r.rules _ hleaves).view⟩
    obtain ⟨next, hrun, hnext⟩ := hview others (fun rule => by simp [hsame]) hfilters
    obtain ⟨last, hlast, hlastView⟩ := hview r.rules (fun rule => by simp)
      fun rule => Command.TreeRequest.isFilter_of_mem_rules
    rw [hrun, hlast]
    show Except.ok _ = Except.ok _
    rw [hnext, hlastView]
  · have hdeep : ∃ q ∈ cells, ¬ Quiet "root" (Store.load {} root).2 999 q.item := by
      simpa using hquiet
    -- without rules nothing is transformed, and else the first transform fails
    have hfails : ∀ some : List CellRule, some ≠ [] → (∀ rule ∈ some, rule.isFilter = true) →
        ∃ next, outcome (CellRule.applyAll (999 + 1) some false (.node id))
          ⟨(Store.load {} root).2, log, ()⟩ = (.error .tooDeep, next) := by
      intro some hsome hfilter
      cases some with
      | nil => exact absurd rfl hsome
      | cons rule more =>
        exact CellRule.applyAll_tooDeep hnotebook hdeep rfl (hfilter rule List.mem_cons_self) more
          false
    have hempty : others = [] ↔ r.rules = [] := by
      simp only [List.eq_nil_iff_forall_not_mem, hsame]
    by_cases hnil : r.rules = []
    · rw [hnil, hempty.mpr hnil]
    · obtain ⟨next, hrun⟩ := hfails others (fun hnone => hnil (hempty.mp hnone)) hfilters
      obtain ⟨last, hlast⟩ := hfails r.rules hnil
        fun rule => Command.TreeRequest.isFilter_of_mem_rules
      rw [hrun, hlast]
      rfl

/-- The rules for cells are one filter, in whatever order they are applied to a notebook and however
often: a transform with each comes back to the root, of which the cells are left that pass all of
them, with the first child only if they are code and outputs are dropped, and nothing else changes.
So the command makes the same tree in any order. -/
theorem cellRules_filter (hread : (read files settings source).outcome = (.ok root, log))
    (htagged : ∀ c ∈ root.children?.getD [], c.isWellTagged = true) :
    (∀ {σ : Type} (limit : Nat) (reverse : Bool) (rules others : List CellRule) (s : Scene σ),
      root.levels ≤ limit → (∀ rule ∈ rules, rule.isFilter = true) →
      (∀ rule, rule ∈ others ↔ rule ∈ rules) →
      let item := (s.store.load root).1
      let loaded := (s.store.load root).2
      ∃ next, outcome (CellRule.applyAll limit others reverse item) { s with store := loaded } =
          (.ok item, next) ∧
        next.own = s.own ∧ HasFiltered rules root item loaded next.store) ∧
    ∀ (r : Command.TreeRequest) (told : List Log.Entry), r.settings = .ok settings →
      (readAtPath files settings r.notebook).outcome = (.ok root, told) →
      (root.levels ≤ Command.depthLimit →
        Command.treeOf (r.tree files) = .ok (CellRule.filtered r.rules root)) ∧
      ∀ others, (∀ rule, rule ∈ others ↔ rule ∈ r.rules) →
        Command.treeOf (r.treeWith others files) = Command.treeOf (r.tree files) := by
  refine ⟨fun {σ} limit reverse rules others s hlimit hrules hsame => ?_,
    fun r told hsettings htold => ⟨fun hlimit => ?_, fun others hsame => ?_⟩⟩
  · -- in the library, for any walk; then for the command, which views the tree that is left
    exact applyAll_hasFiltered hread htagged hlimit reverse hrules hsame s
  · obtain ⟨next, hrun, -, hfiltered⟩ := applyAll_hasFiltered hread htagged hlimit false
      (fun rule => Command.TreeRequest.isFilter_of_mem_rules) (fun rule : CellRule => Iff.rfl)
      ⟨{}, told, ()⟩
    rw [Command.TreeRequest.tree, Command.treeOf_treeWith hsettings htold, hrun, ← hfiltered.view]
    rfl
  · exact treeOf_treeWith_congr hsettings htold htagged hsame

/-- The file of a notebook with code that has an output, a blank Markdown cell and a tagged raw
cell. -/
def taggedFolder : Folder :=
  [(["a.ipynb"], String.toUTF8 <| String.join
    ["\x7b\"cells\":[\x7b\"cell_type\":\"code\",\"source\":\"1\",",
      "\"outputs\":[\x7b\"output_type\":\"stream\"\x7d]\x7d,",
      "\x7b\"cell_type\":\"markdown\",\"source\":\" \"\x7d,",
      "\x7b\"cell_type\":\"raw\",\"source\":\"c\",",
      "\"metadata\":\x7b\"tags\":[\"b\"]\x7d\x7d]\x7d"])]

/-- A request for its tree. -/
def taggedRequest : Command.TreeRequest where
  notebook := "a.ipynb"
  readsMarkdown := false
  extensions := []
  removesOutputs := true
  keptTags := []
  removedTags := ["b"]
  removesEmpty := true
  reverse := false
  layout := .json

/-- The rules of the request in other orders, and one of them twice. -/
theorem cellRules_filter_sample :
    ∃ settings root log next, taggedRequest.settings = .ok settings ∧
      (read taggedFolder settings (.data (.text "a.ipynb"))).outcome = (.ok root, log) ∧
      outcome (CellRule.applyAll 9
          [.removeEmpty, .removeOutputs, .removeTagged [.text "b"], .removeEmpty] true
          (Store.load {} root).1) ⟨(Store.load {} root).2, [], ()⟩ =
        (.ok (Store.load {} root).1, next) ∧
      HasFiltered taggedRequest.rules root (Store.load {} root).1 (Store.load {} root).2
        next.store ∧
      Command.treeOf (taggedRequest.treeWith
          [.removeEmpty, .removeTagged [.text "b"], .removeOutputs] taggedFolder) =
        .ok (CellRule.filtered taggedRequest.rules root) ∧
      ((CellRule.filtered taggedRequest.rules root).children?.getD []).map
        (fun c => (c.children?.getD []).length) = [1] := by
  have hrules : taggedRequest.rules =
      [.removeOutputs, .removeTagged [.text "b"], .removeEmpty] := rfl
  have hfacts : ((taggedRequest.settings.toOption.bind fun settings =>
      (readAtPath taggedFolder settings "a.ipynb").outcome.1.toOption).map fun root =>
        ((root.children?.getD []).all Value.isWellTagged, decide (root.levels ≤ 9),
          ((CellRule.filtered taggedRequest.rules root).children?.getD []).map
            fun c => (c.children?.getD []).length)) = some (true, true, [1]) := by
    decide +kernel
  -- all that can be computed is computed at once; the tree itself stays a variable behind it
  rcases hsettings : taggedRequest.settings with e | settings
  · rw [hsettings] at hfacts
    cases hfacts
  rcases hread : (readAtPath taggedFolder settings "a.ipynb").outcome with ⟨e | root, log⟩
  · rw [hsettings, show (Except.ok settings).toOption = some settings from rfl, Option.bind_some,
      hread] at hfacts
    cases hfacts
  rw [hsettings, show (Except.ok settings).toOption = some settings from rfl, Option.bind_some,
    hread] at hfacts
  obtain ⟨htagged, hlevels, hleft⟩ := by
    simpa only [Prod.mk.injEq] using Option.some.inj hfacts
  have hsame : ∀ rule, rule ∈ [CellRule.removeEmpty, .removeTagged [.text "b"], .removeOutputs] ↔
      rule ∈ taggedRequest.rules := fun rule => by
    simp only [hrules, List.mem_cons, List.not_mem_nil, or_false]
    tauto
  have hsame' : ∀ rule, rule ∈ [CellRule.removeEmpty, .removeOutputs, .removeTagged [.text "b"],
      .removeEmpty] ↔ rule ∈ taggedRequest.rules := fun rule => by
    simp only [hrules, List.mem_cons, List.not_mem_nil, or_false]
    tauto
  obtain ⟨hlibrary, hcommand⟩ := cellRules_filter hread (List.all_eq_true.mp htagged)
  obtain ⟨hmade, horder⟩ := hcommand taggedRequest log hsettings hread
  have hlimit : root.levels ≤ 9 := of_decide_eq_true hlevels
  obtain ⟨next, hrun, -, hfiltered⟩ := hlibrary 9 true taggedRequest.rules _ ⟨{}, [], ()⟩ hlimit
    (fun rule => Command.TreeRequest.isFilter_of_mem_rules) hsame'
  exact ⟨settings, root, log, next, rfl, hread, hrun, hfiltered,
    (horder _ hsame).trans (hmade (Nat.le_trans hlimit (by decide))), hleft⟩

end Notebook

end NotebookTree
