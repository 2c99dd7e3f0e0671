import NotebookTree.Proofs.Markdown.Regular
import NotebookTree.Proofs.Notebook.Shape
import NotebookTree.Proofs.Settings
import NotebookTree.Proofs.Walk.MarkdownRule

/-!
# Two ways of reading the Markdown of a notebook

The Markdown of a notebook can be read along with it, or afterwards by the rule for it. To read it
along is to read the notebook without it and to rewrite what comes of that (`result_read`): a cell
that is no Markdown cell is the same either way, and holds nothing that the rule would replace; a
Markdown cell holds one node that it replaces. With this a transform with the rule comes to the same
tree, or to the same fault.

## Main definitions

* `markdownTexts`: the texts of the Markdown cells of a notebook.
* `Accepted`: the engine accepts a text.

## Main results

* `read_withMarkdown_agrees`: both ways agree, and the rule does not change anything a second time.
-/

namespace NotebookTree.Notebook

open Settings (withMarkdown)

/-- The Markdown node that stands for a text before it is read. -/
abbrev unread (source : String) : Value := bare .markdown [("value", .text source)]

section Engine

variable [Markdown.Engine] {settings language : Value}

/-- The settings that are used when none are given leave Markdown as it is. -/
theorem contentOf_usual {source : String} {content : Value}
    (h : ContentOf (Settings.usual .parseSettings) source content) :
    content = unread source := by
  cases h with
  | unread => rfl
  | read asked yes =>
    obtain rfl := Except.ok.inj asked
    cases yes

/-- An unread cell is read to the tree of its elements. -/
theorem markdownTree_unread (settings : Value) (source : String) :
    markdownTree settings (unread source) =
      (Markdown.elementsFor settings (.text source)).map fun elements =>
        .node .parsedMarkdown [("children", .list elements),
          ("data", .record [("source", .text source)]), ("position", .null)] := by
  show (Markdown.elementsFor settings (.text source) >>= fun _ => _) = _
  cases Markdown.elementsFor settings (.text source) <;> rfl

/-- What a Markdown cell holds when Markdown is read is what the rule makes of its text. -/
theorem result_markdownContent (settings : Value) (source : String) :
    (markdownContent (withMarkdown settings) source).outcome.1 =
      markdownTree settings (unread source) := by
  have hread : markdownContent (withMarkdown settings) source =
      (do let tree ← Markdown.parse (.text source) settings
          return .node .parsedMarkdown [("children", .list (tree.children?.getD [])),
            ("data", .record [("source", .text source)]), ("position", .null)]) := rfl
  rw [hread, Logged.result_bind fun _ => Logged.onlyTells_pure _, Markdown.parse_outcome,
    markdownTree_unread]
  cases Markdown.elementsFor settings (.text source) <;> rfl

/-- A cell that is no Markdown cell is the same with any settings. -/
theorem cell_of_not_markdown {es : Entries Value} (h : entry es "cell_type" ≠ .text "markdown")
    (settings settings' language : Value) (index : Nat) :
    cell settings language index (.record es) = cell settings' language index (.record es) := by
  have hno : (entry es "cell_type").equals (.text "markdown") = false := by
    simpa using mt Value.equals_text_iff.mp h
  simp only [cell, entriesOf, Logged.ofExcept_ok_bind, hno, Bool.false_eq_true, if_false]

/-- A Markdown cell holds what becomes of its text. -/
theorem result_cell_of_markdown {es : Entries Value} (h : entry es "cell_type" = .text "markdown")
    (settings language : Value) (index : Nat) :
    (cell settings language index (.record es)).outcome.1 =
      (markdownContent settings (joinText (entry es "source"))).outcome.1.map fun content =>
        bare .markdownCell [("children", .list [content]),
          ("metadata", entryOr es "metadata" (.record []))] := by
  have hcode : (entry es "cell_type").equals (.text "code") = false := by simp [h, Value.equals,
    Value.equalsScalar]
  have hmarkdown : (entry es "cell_type").equals (.text "markdown") = true :=
    Value.equals_text_iff.mpr h
  simp only [cell, entriesOf, Logged.ofExcept_ok_bind, hcode, hmarkdown, Bool.false_eq_true,
    if_false, if_true]
  rw [Logged.result_bind fun _ => Logged.onlyTells_pure _]
  cases (markdownContent settings (joinText (entry es "source"))).outcome.1 <;> rfl

/-! ## What the rule leaves alone -/

omit [Markdown.Engine] in
/-- An output is a tree of one level and no Markdown. -/
theorem outputOf_leaf {output node : Value} (h : OutputOf output node) :
    IsTree node ∧ node.levels = 1 ∧ NoMarkdown node := by
  cases h <;> exact ⟨isTree_of_not_has (by decide) rfl, rfl, noMarkdown_leaf rfl rfl (by decide)⟩

/-- A cell is a tree. -/
theorem isTree_of_cellOf {v c : Value} (h : CellOf settings language v c) : IsTree c := by
  cases h with
  | code type listed outputs =>
    refine isTree_of_children (by decide) rfl (List.forall_mem_cons.mpr
      ⟨isTree_of_not_has (by decide) rfl, fun n hn => ?_⟩)
    obtain ⟨output, -, hof⟩ := exists_of_forall₂_of_mem outputs hn
    exact (outputOf_leaf hof).1
  | markdown type holds =>
    refine isTree_of_children (by decide) rfl (List.forall_mem_singleton.mpr ?_)
    cases holds with
    | unread => exact isTree_of_not_has (by decide) rfl
    | read asked yes chosen parsed =>
      obtain ⟨ts, rfl⟩ := Markdown.exists_tokens_of_elementsFor parsed
      exact isTree_of_children (by decide) rfl (Markdown.isTree_elements ts)
  | other =>
    exact isTree_of_children (by decide) rfl
      (List.forall_mem_singleton.mpr (isTree_of_not_has (by decide) rfl))

/-- A cell has no Markdown if what it holds when it is a Markdown cell has none. -/
theorem noMarkdown_of_cellOf {v c : Value} (h : CellOf settings language v c)
    (hcontent : ∀ es, v = .record es → entry es "cell_type" = .text "markdown" →
      ∀ content, ContentOf settings (joinText (entry es "source")) content → NoMarkdown content) :
    NoMarkdown c := by
  cases h with
  | code type listed outputs =>
    -- code and outputs are leaves of other kinds
    refine noMarkdown_branch rfl (by decide) (List.forall_mem_cons.mpr
      ⟨noMarkdown_leaf rfl rfl (by decide), fun n hn => ?_⟩)
    obtain ⟨output, -, hof⟩ := exists_of_forall₂_of_mem outputs hn
    exact (outputOf_leaf hof).2.2
  | markdown type holds =>
    exact noMarkdown_branch rfl (by decide)
      (List.forall_mem_singleton.mpr (hcontent _ rfl type _ holds))
  | other =>
    exact noMarkdown_branch rfl (by decide)
      (List.forall_mem_singleton.mpr (noMarkdown_leaf rfl rfl (by decide)))

/-- A cell that is no Markdown cell has two levels. -/
theorem levels_of_cellOf {es : Entries Value} {c : Value}
    (h : CellOf settings language (.record es) c)
    (htype : entry es "cell_type" ≠ .text "markdown") : c.levels ≤ 2 := by
  cases h with
  | code type listed outputs =>
    refine Nat.succ_le_succ (Nat.max_le.mpr ⟨levelsOfAll_le
      (List.forall_mem_cons.mpr ⟨Nat.le_refl 1, fun n hn => ?_⟩), Nat.zero_le 1⟩)
    obtain ⟨output, -, hof⟩ := exists_of_forall₂_of_mem outputs hn
    exact Nat.le_of_eq (outputOf_leaf hof).2.1
  | markdown type => exact absurd type htype
  | other => exact Nat.le_refl 2

/-! ## Reading with Markdown is rewriting -/

/-- What the rule puts in the place of the only child of a Markdown cell. -/
theorem rewriteWithin_markdownCell (settings : Value) (limit : Nat) (source : String)
    (metadata : Value) :
    rewriteWithin (readMarkdown? settings) (limit + 2)
        (bare .markdownCell [("children", .list [unread source]), ("metadata", metadata)]) =
      (markdownTree settings (unread source)).map fun content =>
        bare .markdownCell [("children", .list [content]), ("metadata", metadata)] := by
  have hbelow : [unread source].mapM (rewriteWithin (readMarkdown? settings) (limit + 1)) =
      (markdownTree settings (unread source)).map ([·]) := by
    rw [List.mapM_cons, List.mapM_nil, rewriteWithin_leaf rfl, readMarkdown?, if_pos (by rfl)]
    cases markdownTree settings (unread source) <;> rfl
  show rewriteWithin _ _ (.node .markdownCell ([] ++ ("children", .list [unread source]) ::
    [("metadata", metadata), ("data", .null), ("position", .null)])) = _
  rw [rewriteWithin_branch rfl rfl, hbelow]
  cases markdownTree settings (unread source) <;> rfl

/-- A cell that is no Markdown cell stays. -/
theorem rewriteWithin_cell_of_not_markdown {es : Entries Value} {c : Value} (settings' : Value)
    (limit : Nat) (hof : CellOf settings language (.record es) c)
    (htype : entry es "cell_type" ≠ .text "markdown") :
    rewriteWithin (readMarkdown? settings') (limit + 2) c = .ok c := by
  have hquiet : NoMarkdown c := noMarkdown_of_cellOf hof fun es' hes htype' =>
    absurd (Value.record.inj hes ▸ htype') htype
  exact rewriteWithin_eq_self (isTree_of_cellOf hof)
    (fun n hn => readMarkdown?_of_noMarkdown hquiet hn)
    (Nat.le_trans (levels_of_cellOf hof htype) (Nat.le_add_left 2 limit))

/-- A cell read with its Markdown is the cell read without, rewritten. -/
theorem result_cell {index : Nat} {v c : Value} {log : List Log.Entry} (settings : Value)
    (limit : Nat)
    (h : (cell (Settings.usual .parseSettings) language index v).outcome = (.ok c, log)) :
    (cell (withMarkdown settings) language index v).outcome.1 =
      rewriteWithin (readMarkdown? settings) (limit + 2) c := by
  have hof := (cell_cases h).1
  obtain ⟨es, rfl⟩ : ∃ es, v = .record es := by cases hof <;> exact ⟨_, rfl⟩
  by_cases htype : entry es "cell_type" = .text "markdown"
  · rw [result_cell_of_markdown htype, result_markdownContent]
    cases hof with
    | code type => rw [type] at htype; simp at htype
    | markdown _ holds => rw [contentOf_usual holds, rewriteWithin_markdownCell]
    | other _ notMarkdown => exact absurd htype notMarkdown
  · -- nothing in the cell looks like Markdown, so that the rule leaves all of it alone
    rw [cell_of_not_markdown htype _ (Settings.usual .parseSettings), h,
      rewriteWithin_cell_of_not_markdown settings limit hof htype]

/-- The cells read with their Markdown are the cells read without, rewritten one after the other. -/
theorem result_cellsFrom (settings : Value) (limit : Nat) :
    ∀ {index : Nat} {vs cells : List Value} {log : List Log.Entry},
      (cellsFrom (Settings.usual .parseSettings) language index vs).outcome = (.ok cells, log) →
        (cellsFrom (withMarkdown settings) language index vs).outcome.1 =
          cells.mapM (rewriteWithin (readMarkdown? settings) (limit + 2))
  | _, [], _, _, h => by
    obtain ⟨rfl, -⟩ := Logged.eq_of_outcome_pure h
    rfl
  | index, v :: vs, cells, log, h => by
    obtain ⟨c, others, first, rest, hc, hothers, rfl, -⟩ := exists_of_outcome_cellsFrom_cons h
    rw [cellsFrom, Logged.result_bind fun _ => Logged.onlyTells_bind
        (onlyTells_cellsFrom _ language (index + 1) vs) fun _ => Logged.onlyTells_pure _,
      result_cell settings limit hc, List.mapM_cons]
    -- what a cell tells does not reach its result, so the cells behind it may be read on their own
    refine congrArg _ (funext fun _ => ?_)
    rw [Logged.result_bind fun _ => Logged.onlyTells_pure _,
      result_cellsFrom settings limit hothers]
    rfl

/-- A root stays with the cells that its cells become. -/
theorem rewriteWithin_root (settings : Value) (limit : Nat) (cells : List Value)
    (metadata nbformat minor : Value) :
    rewriteWithin (readMarkdown? settings) (limit + 1) (bare .root [("children", .list cells),
        ("metadata", metadata), ("nbformat", nbformat), ("nbformat_minor", minor)]) =
      (cells.mapM (rewriteWithin (readMarkdown? settings) limit)).map fun others =>
        bare .root [("children", .list others), ("metadata", metadata), ("nbformat", nbformat),
          ("nbformat_minor", minor)] := by
  show rewriteWithin _ _ (.node .root ([] ++ ("children", .list cells) :: [("metadata", metadata),
    ("nbformat", nbformat), ("nbformat_minor", minor), ("data", .null), ("position", .null)])) = _
  rw [rewriteWithin_branch rfl rfl]
  cases cells.mapM (rewriteWithin (readMarkdown? settings) limit) <;> rfl

/-- A notebook read with its Markdown is the notebook read without, rewritten. -/
theorem result_convert {es : Entries Value} {root : Value} {log : List Log.Entry}
    (settings : Value) (limit : Nat)
    (h : (convert (Settings.usual .parseSettings) (.record es)).outcome = (.ok root, log)) :
    (convert (withMarkdown settings) (.record es)).outcome.1 =
      rewriteWithin (readMarkdown? settings) (limit + 3) root := by
  obtain ⟨language, entries, cells, told, last, hlanguage, hentries, hrun, rfl, -⟩ :=
    exists_of_outcome_convert h
  rw [rewriteWithin_root, convert, entriesOf, Logged.ofExcept_ok_bind]
  dsimp only
  rw [hlanguage, Logged.ofExcept_ok_bind, hentries, Logged.ofExcept_ok_bind, Logged.result_bind
      fun _ => Logged.onlyTells_bind (Logged.onlyTells_tell _) fun _ => Logged.onlyTells_pure _,
    result_cellsFrom settings limit hrun]
  cases cells.mapM (rewriteWithin (readMarkdown? settings) (limit + 2)) <;> rfl

/-- Reading a notebook from wherever it comes, with its Markdown, is rewriting what comes of reading
it without. -/
theorem result_read {files : Folder} {source : Source} {root : Value} {log : List Log.Entry}
    (settings : Value) (limit : Nat) (h : (read files .null source).outcome = (.ok root, log)) :
    (read files (withMarkdown settings) source).outcome.1 =
      rewriteWithin (readMarkdown? settings) (limit + 3) root := by
  obtain ⟨options, es, path, entries, hoptions, hdata, hcells, hrest⟩ := exists_of_outcome_read h
  obtain rfl := Except.ok.inj hoptions
  rw [read_of_notebook rfl hdata hcells, result_convert settings limit hrest]

/-! ## What the engine accepts -/

/-- The text of a Markdown cell. -/
def markdownText? (cell : Value) : Option Value :=
  if cell.hasCellType "markdown" then
    (cell.children?.getD []).head?.bind fun content => content.attribute? "value"
  else none

/-- The texts of the Markdown cells of a notebook, in order. -/
def markdownTexts (root : Value) : List Value :=
  (root.children?.getD []).filterMap markdownText?

/-- The engine accepts a text. -/
def Accepted (extensions : List Markdown.Extension) (text : Value) : Prop :=
  ∃ ts, Markdown.Engine.tokens extensions text = .ok ts

section Accepted

variable {extensions : List Markdown.Extension}

/-- The elements of a text depend on whether the engine accepts it. -/
theorem elementsFor_of_extensions (hsettings : Markdown.extensionsFor settings = .ok extensions)
    (text : Value) : Markdown.elementsFor settings text =
      match Markdown.Engine.tokens extensions text with
      | .ok ts => .ok (Markdown.elementsOf ts)
      | .error cause => .error (Markdown.refusal cause) := by
  rw [Markdown.elementsFor, hsettings, Except.ok_bind]
  cases Markdown.Engine.tokens extensions text <;> rfl

/-- A cell without Markdown stays; one with Markdown comes to something made of the elements of its
text. -/
theorem rewriteWithin_cell {v c : Value} (settings : Value) (limit : Nat)
    (hof : CellOf (Settings.usual .parseSettings) language v c) :
    (markdownText? c = none ∧ rewriteWithin (readMarkdown? settings) (limit + 2) c = .ok c) ∨
      ∃ (source : String) (turn : List Value → Value), markdownText? c = some (.text source) ∧
        rewriteWithin (readMarkdown? settings) (limit + 2) c =
          (Markdown.elementsFor settings (.text source)).map turn := by
  have hstays := fun es (hes : v = .record es) (htype : entry es "cell_type" ≠ .text "markdown") =>
    rewriteWithin_cell_of_not_markdown settings limit (hes ▸ hof) htype
  cases hof with
  | code type => exact .inl ⟨rfl, hstays _ rfl (by rw [type]; simp)⟩
  | markdown type holds =>
    rw [contentOf_usual holds, rewriteWithin_markdownCell, markdownTree_unread]
    exact .inr ⟨_, _, rfl, (comp_map _ _ (Markdown.elementsFor settings _)).symm⟩
  | other _ notMarkdown => exact .inl ⟨rfl, hstays _ rfl notMarkdown⟩

/-- A cell is rewritten if the engine accepts its text, should it have one. -/
theorem exists_rewriteWithin_cell_iff {v c : Value} (limit : Nat)
    (hsettings : Markdown.extensionsFor settings = .ok extensions)
    (hof : CellOf (Settings.usual .parseSettings) language v c) :
    (∃ c', rewriteWithin (readMarkdown? settings) (limit + 2) c = .ok c') ↔
      ∀ text, markdownText? c = some text → Accepted extensions text := by
  obtain ⟨hnone, hstays⟩ | ⟨source, turn, htext, hturn⟩ := rewriteWithin_cell settings limit hof
  · simp [hnone, hstays]
  · simp only [htext, hturn, Option.some.injEq, forall_eq', Accepted,
      elementsFor_of_extensions hsettings]
    cases Markdown.Engine.tokens extensions (.text source) <;> simp [Except.map]

/-- A cell that is not rewritten has a text that the engine refuses. -/
theorem exists_text_of_rewriteWithin_cell {v c : Value} {e : Fault} {limit : Nat}
    (hsettings : Markdown.extensionsFor settings = .ok extensions)
    (hof : CellOf (Settings.usual .parseSettings) language v c)
    (h : rewriteWithin (readMarkdown? settings) (limit + 2) c = .error e) :
    ∃ text cause, markdownText? c = some text ∧
      Markdown.Engine.tokens extensions text = .error cause ∧ e = Markdown.refusal cause := by
  obtain ⟨-, hstays⟩ | ⟨source, turn, htext, hturn⟩ := rewriteWithin_cell settings limit hof
  · rw [hstays] at h
    cases h
  · rw [hturn, elementsFor_of_extensions hsettings] at h
    cases hcause : Markdown.Engine.tokens extensions (.text source) with
    | ok ts => rw [hcause] at h; cases h
    | error cause =>
      rw [hcause] at h
      exact ⟨_, cause, htext, hcause, (Except.error.inj h).symm⟩

/-- The cells of a notebook are all rewritten, and the engine accepts all of their texts; or
rewriting ends with the first text that the engine refuses. -/
theorem mapM_rewriteWithin_cases {entries cells : List Value} (limit : Nat)
    (hsettings : Markdown.extensionsFor settings = .ok extensions)
    (hcells : List.Forall₂ (CellOf (Settings.usual .parseSettings) language) entries cells) :
    (∃ others, cells.mapM (rewriteWithin (readMarkdown? settings) (limit + 2)) = .ok others ∧
        ∀ text ∈ cells.filterMap markdownText?, Accepted extensions text) ∨
      ∃ before text after cause, cells.filterMap markdownText? = before ++ text :: after ∧
        (∀ b ∈ before, Accepted extensions b) ∧
        Markdown.Engine.tokens extensions text = .error cause ∧
        cells.mapM (rewriteWithin (readMarkdown? settings) (limit + 2)) =
          .error (Markdown.refusal cause) := by
  have haccepted : ∀ some ⊆ cells,
      (∀ c ∈ some, ∃ c', rewriteWithin (readMarkdown? settings) (limit + 2) c = .ok c') →
        ∀ text ∈ some.filterMap markdownText?, Accepted extensions text := by
    intro some hsome hall text htext
    obtain ⟨c, hc, htext⟩ := List.mem_filterMap.mp htext
    obtain ⟨v, -, hof⟩ := exists_of_forall₂_of_mem hcells (hsome hc)
    exact (exists_rewriteWithin_cell_iff limit hsettings hof).mp (hall c hc) text htext
  -- the first cell that is not rewritten holds the first text that is refused
  obtain ⟨others, hothers, hall⟩ | ⟨before, c, after, e, rfl, hbefore, hc, he⟩ :=
    Except.mapM_cases (rewriteWithin (readMarkdown? settings) (limit + 2)) cells
  · exact .inl ⟨others, hothers, haccepted cells (List.Subset.refl _) hall⟩
  · obtain ⟨v, -, hof⟩ := exists_of_forall₂_of_mem hcells
      (List.mem_append_right before List.mem_cons_self)
    obtain ⟨text, cause, htext, hcause, rfl⟩ := exists_text_of_rewriteWithin_cell hsettings hof hc
    refine .inr ⟨before.filterMap markdownText?, text, after.filterMap markdownText?, cause, ?_,
      haccepted before (List.subset_append_left _ _) hbefore, hcause, he⟩
    rw [List.filterMap_append, List.filterMap_cons_some htext]

end Accepted

/-! ## What has been read is left alone -/

/-- Nothing that a notebook has become when it was read with its Markdown is a Markdown node. -/
theorem noMarkdown_of_read (hengine : Markdown.NamesNoMarkdown) {files : Folder} {source : Source}
    {tree : Value} {log : List Log.Entry}
    (h : (read files (withMarkdown settings) source).outcome = (.ok tree, log)) :
    NoMarkdown tree := by
  obtain ⟨options, es, path, entries, language, cells, hoptions, -, -, -, rfl, hshapes, -⟩ :=
    read_cases h
  obtain rfl : withMarkdown settings = options := Except.ok.inj hoptions
  refine noMarkdown_branch rfl (by decide) fun c hc => ?_
  obtain ⟨v, -, hof⟩ := exists_of_forall₂_of_mem hshapes hc
  refine noMarkdown_of_cellOf hof fun es _ _ content hcontent => ?_
  cases hcontent with
  | unread asked no =>
    obtain rfl := Except.ok.inj asked
    cases no
  | read _ _ _ parsed =>
    exact noMarkdown_branch rfl (by decide) (noMarkdown_elements hengine parsed)

/-- Whatever a notebook has become is a tree. -/
theorem isTree_of_read {files : Folder} {source : Source} {tree : Value} {log : List Log.Entry}
    (h : (read files settings source).outcome = (.ok tree, log)) : IsTree tree := by
  obtain ⟨options, es, path, entries, language, cells, -, -, -, -, rfl, hshapes, -⟩ := read_cases h
  refine isTree_of_children (by decide) rfl fun c hc => ?_
  obtain ⟨v, -, hof⟩ := exists_of_forall₂_of_mem hshapes hc
  exact isTree_of_cellOf hof

/-! ## Both ways -/

omit [Markdown.Engine] in
/-- Settings for Markdown that are not given, or that could be made, ask for extensions. -/
theorem exists_extensions (h : settings = .null ∨
    ∃ given, Settings.make .markdownSettings given = .ok settings) :
    ∃ extensions, Markdown.extensionsFor settings = .ok extensions := by
  obtain rfl | ⟨given, h⟩ := h
  · exact ⟨[], rfl⟩
  · exact Settings.exists_extensions_of_make h

/-- What a notebook has become is rewritten, and the engine accepts the texts of all its Markdown
cells; or rewriting ends with the first text that the engine refuses. -/
theorem rewriteWithin_cases_of_read {files : Folder} {source : Source} {root : Value}
    {log : List Log.Entry} {extensions : List Markdown.Extension} (limit : Nat)
    (hsettings : Markdown.extensionsFor settings = .ok extensions)
    (h : (read files .null source).outcome = (.ok root, log)) :
    (∃ tree, rewriteWithin (readMarkdown? settings) (limit + 3) root = .ok tree ∧
        ∀ text ∈ markdownTexts root, Accepted extensions text) ∨
      ∃ before text after cause, markdownTexts root = before ++ text :: after ∧
        (∀ b ∈ before, Accepted extensions b) ∧
        Markdown.Engine.tokens extensions text = .error cause ∧
        rewriteWithin (readMarkdown? settings) (limit + 3) root =
          .error (Markdown.refusal cause) := by
  obtain ⟨options, es, path, entries, language, cells, hoptions, -, -, -, rfl, hshapes, -⟩ :=
    read_cases h
  obtain rfl := Except.ok.inj hoptions
  rw [rewriteWithin_root]
  obtain ⟨others, hothers, haccepted⟩ | ⟨before, text, after, cause, hsplit, hbefore, hcause, he⟩ :=
    mapM_rewriteWithin_cases limit hsettings hshapes
  · exact .inl ⟨_, by rw [hothers]; rfl, haccepted⟩
  · exact .inr ⟨before, text, after, cause, hsplit, hbefore, hcause, by rw [he]; rfl⟩

/-- The texts of Markdown cells are texts. -/
theorem exists_of_mem_markdownTexts {files : Folder} {source : Source} {root text : Value}
    {log : List Log.Entry} (h : (read files .null source).outcome = (.ok root, log))
    (htext : text ∈ markdownTexts root) : ∃ s : String, text = .text s := by
  obtain ⟨options, es, path, entries, language, cells, hoptions, -, -, -, rfl, hshapes, -⟩ :=
    read_cases h
  obtain rfl := Except.ok.inj hoptions
  obtain ⟨c, hc, htext⟩ := List.mem_filterMap.mp htext
  obtain ⟨v, -, hof⟩ := exists_of_forall₂_of_mem hshapes hc
  obtain ⟨hnone, -⟩ | ⟨s, turn, hs, -⟩ := rewriteWithin_cell .null 0 hof
  · rw [hnone] at htext
    cases htext
  · exact ⟨s, Option.some.inj (htext.symm.trans hs)⟩

/-- The rule turns the tree that a notebook has become without its Markdown into the tree that it
becomes with it, where the tree was. Both ways come to an end if the engine accepts the text of
every Markdown cell, and else both fail as the engine refuses the first text that it does not accept.
Once the Markdown has been read, the rule changes nothing more. -/
theorem read_withMarkdown_agrees {σ : Type} (hengine : Markdown.NamesNoMarkdown) {files : Folder}
    {source : Source} {root : Value} {log : List Log.Entry} {limit : Nat}
    (hread : (read files .null source).outcome = (.ok root, log))
    (hsettings : settings = .null ∨ ∃ given, Settings.make .markdownSettings given = .ok settings)
    (hlimit : 3 ≤ limit) (s : Scene σ) :
    let rule : Callback σ := CellRule.callback (.readMarkdown settings)
    let item := (s.store.load root).1
    let run := Walk.outcome (Walk.transform limit item rule false)
      { s with store := (s.store.load root).2 }
    ∃ extensions, Markdown.extensionsFor settings = .ok extensions ∧
      ((∃ tree log' next, (∀ text ∈ markdownTexts root, Accepted extensions text) ∧
          (read files (withMarkdown settings) source).outcome = (.ok tree, log') ∧
          run = (.ok item, next) ∧ next.store.view item = tree ∧
          ∀ limit', tree.levels ≤ limit' → ∃ last,
            Walk.outcome (Walk.transform limit' item rule false) next = (.ok item, last) ∧
              last.store.view item = tree) ∨
        ∃ before text after cause, markdownTexts root = before ++ text :: after ∧
          (∀ b ∈ before, Accepted extensions b) ∧
          Markdown.Engine.tokens extensions text = .error cause ∧
          (read files (withMarkdown settings) source).outcome.1 = .error (Markdown.refusal cause) ∧
          run.1 = .error (Markdown.refusal cause)) := by
  intro rule item run
  obtain ⟨extensions, hextensions⟩ := exists_extensions hsettings
  refine ⟨extensions, hextensions, ?_⟩
  obtain ⟨rest, rfl⟩ := Nat.exists_eq_add_of_le' hlimit
  -- both ways come to what rewriting the root comes to
  have hresult := result_read settings rest hread
  obtain ⟨ids, hholds, -, -⟩ := Store.load_holds (isTree_of_read hread) s.store
  have hroot : root.hasType "markdown" = false := by
    obtain ⟨_, _, _, _, _, _, -, -, -, -, rfl, -⟩ := read_cases hread
    rfl
  have hrun := Walk.outcome_transform_readMarkdown settings
    (s := { s with store := (s.store.load root).2 }) hholds hroot (rest + 3)
  obtain ⟨tree, htree, haccepted⟩ | ⟨before, text, after, cause, hsplit, hbefore, hcause, he⟩ :=
    rewriteWithin_cases_of_read rest hextensions hread
  · rw [htree] at hresult hrun
    have hread' : (read files (withMarkdown settings) source).outcome = (.ok tree, _) :=
      Prod.ext hresult rfl
    obtain ⟨ids', next, hrun, hnext⟩ := hrun
    refine .inl ⟨tree, _, next, haccepted, hread', hrun, hnext.view, fun limit' hlevels => ?_⟩
    -- the second time there is nothing left that the rule would replace
    have hquiet := noMarkdown_of_read hengine hread'
    have hagain := Walk.outcome_transform_readMarkdown settings hnext (hquiet tree .root) limit'
    rw [rewriteWithin_eq_self hnext.isTree (fun n hn => readMarkdown?_of_noMarkdown hquiet hn)
      hlevels] at hagain
    obtain ⟨ids'', last, hagain, hlast⟩ := hagain
    exact ⟨last, hagain, hlast.view⟩
  · rw [he] at hresult hrun
    obtain ⟨next, hrun⟩ := hrun
    exact .inr ⟨before, text, after, cause, hsplit, hbefore, hcause, hresult, by
      show (Walk.outcome _ _).1 = _
      rw [hrun]⟩

end Engine

/-- A notebook with a Markdown cell. -/
theorem read_withMarkdown_agrees_sample :
    let source := Source.data (.record sample)
    let rule : Callback Unit := CellRule.callback (.readMarkdown .null)
    ∃ root log tree log' next, (read [] .null source).outcome = (.ok root, log) ∧
      (read [] (withMarkdown .null) source).outcome = (.ok tree, log') ∧
      Walk.outcome (Walk.transform 3 (Store.load {} root).1 rule false)
          ⟨(Store.load {} root).2, [], ()⟩ = (.ok (Store.load {} root).1, next) ∧
        next.store.view (Store.load {} root).1 = tree := by
  intro source rule
  have hreturns : (read [] .null source).outcome.1.toOption.isSome = true := by decide +kernel
  rcases hread : (read [] .null source).outcome with ⟨_ | root, log⟩
  · rw [hread] at hreturns
    cases hreturns
  obtain ⟨extensions, -, ⟨tree, log', next, -, hread', hrun, hview, -⟩ |
      ⟨before, text, after, cause, htexts, -, hcause, -⟩⟩ :=
    read_withMarkdown_agrees Markdown.documentEngine_namesNoMarkdown hread (.inl rfl)
      (Nat.le_refl 3) ⟨{}, [], ()⟩
  · exact ⟨root, log, tree, log', next, rfl, hread', hrun, hview⟩
  · -- the engine for documents accepts all texts
    obtain ⟨s, rfl⟩ := exists_of_mem_markdownTexts hread
      (htexts ▸ List.mem_append_right before List.mem_cons_self)
    cases hcause

end NotebookTree.Notebook
