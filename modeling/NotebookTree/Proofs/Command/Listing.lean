import NotebookTree.Proofs.Command.Outputs
import NotebookTree.Proofs.Notebook.CellRules
import NotebookTree.Proofs.Walk.Listing
import NotebookTree.Proofs.Walk.Losing

/-!
# The text of a listing

The listing of a notebook that is printed plainly has a line for each node of the tree, indented as
deep as the node lies. It can be read back as long as no label has the end of a line in it. Labels
quote what they say of texts, but not the name of a stream, the name and value of an error, and the
types of content that an output offers: where these have ends of lines, so has the listing, in
between the lines that it was made of.

## Main definitions

* `HasErrorText`: the entry for an error has a text for its value.
* `bareText`: what the label of an output says bare.
* `labelText`: the label of a node as running text.
* `readLine`: a line of a listing, read back.

## Main statements

* `shownAmong_of_below_root`: the nodes of a notebook have what their labels are made of.
* `listing_lines`: the lines of a listing.
* `listing_breaks`: a listing with more lines than there are nodes.
-/

namespace NotebookTree.Command

open Notebook
open Store (Holds)
open Text (OnOneLine allLines_unlines)
open Walk (outcome outcome_bind_ok exists_of_outcome_bind_ok)

/-! ## The nodes of a notebook -/

/-- What the entry of an output says under a name, or something in its place. -/
def saidBy (output : Value) (name : String) (d : Value) : Value :=
  match output with
  | .record es => (Entries.get? es name).getD d
  | _ => d

/-- The entry for an error has a text for its value. -/
def HasErrorText (output : Value) : Prop :=
  outputType output = .text "error" → ∃ s, saidBy output "evalue" (.text "") = .text s

/-- The texts of an output that its label has as they are. -/
def bareText (output : Value) : String :=
  match outputType output with
  | .text "stream" => (saidBy output "name" (.text "stdout")).plainText
  | .text "error" => (saidBy output "ename" (.text "")).plainText ++ ": " ++
      preview (saidBy output "evalue" (.text "")).plainText
  | .text "display_data" => Value.joinWith ", " (offeredTypes output)
  | .text "execute_result" => Value.joinWith ", " (offeredTypes output)
  | _ => ""

/-- A node is shown, with nothing bare in its label but what one of some outputs says. -/
structure ShownAmong (outputs : List Value) (n : Value) : Prop where
  shown : n.IsShown
  bare : n.barePart = "" ∨ ∃ o ∈ outputs, n.barePart = bareText o

/-- A node of a type that no output has is shown among any outputs. -/
theorem shownAmong_of_type (outputs : List Value) {n : Value} {word : String}
    (htype : n.type? = some (.text word)) (hword : Text.IsWord word.toList) (hne : word ≠ "element")
    (hout : word ∉ Value.outputTypes)
    (hcell : ∀ w, n.attribute? "cell_type" = some w → ∃ cellWord, w = .text cellWord ∧
      OnOneLine cellWord.toList) : ShownAmong outputs n :=
  ⟨Value.isShown_of_type htype hword hne hout hcell, .inl (Value.barePart_of_type htype hout)⟩

/-- What is shown among some outputs is shown among more. -/
theorem ShownAmong.mono {outputs others : List Value} {n : Value} (h : ShownAmong outputs n)
    (hsub : outputs ⊆ others) : ShownAmong others n :=
  ⟨h.shown, h.bare.imp_right fun ⟨o, ho, heq⟩ => ⟨o, hsub ho, heq⟩⟩

/-- The label of an output has bare in it what the output says. -/
theorem isShown_output {output node : Value} (h : OutputOf output node)
    (hbundle : HasBundle output) (herror : HasErrorText output) :
    node.IsShown ∧ node.barePart = bareText output := by
  cases h with
  | @stream es type =>
    have htype : outputType (.record es) = .text "stream" := type
    refine ⟨⟨⟨"stream", rfl, by decide, by decide⟩, fun _ hw => ?_, fun _ => ⟨⟨_, rfl⟩, _, rfl⟩,
      fun hne => ?_, fun hne => ?_⟩, ?_⟩
    · cases hw
    · cases hne
    · rcases hne with h | h <;> cases h
    · rw [bareText, htype]
      rfl
  -- the bare part of a result is the types that it offers
  | @displayData es type =>
    have htype : outputType (.record es) = .text "display_data" := type
    obtain ⟨bundle, hes⟩ := hbundle (.inl htype)
    have hdata := congrArg some hes
    refine ⟨Value.isShown_of_bundle rfl (.inl rfl) rfl hdata,
      Eq.trans (Value.barePart_of_bundle rfl (.inl rfl) hdata) ?_⟩
    rw [bareText, offeredTypes, htype, hes]
    rfl
  | @executeResult es type =>
    have htype : outputType (.record es) = .text "execute_result" := type
    obtain ⟨bundle, hes⟩ := hbundle (.inr htype)
    have hdata := congrArg some hes
    refine ⟨Value.isShown_of_bundle rfl (.inr rfl) rfl hdata,
      Eq.trans (Value.barePart_of_bundle rfl (.inr rfl) hdata) ?_⟩
    rw [bareText, offeredTypes, htype, hes]
    rfl
  | @error es traceback type lines =>
    have htype : outputType (.record es) = .text "error" := type
    obtain ⟨s, hsaid⟩ := herror htype
    have hs : (Entries.get? es "evalue").getD (.text "") = .text s := hsaid
    refine ⟨⟨⟨"error", rfl, by decide, by decide⟩, fun _ hw => ?_, fun hne => ?_,
      fun _ => ⟨⟨_, rfl⟩, s, congrArg some hs⟩, fun hne => ?_⟩, ?_⟩
    · cases hw
    · cases hne
    · rcases hne with h | h <;> cases h
    · rw [bareText, htype, hsaid, hs]
      rfl

/-- The elements of a document are shown: their types are words. -/
theorem shownAmong_element (outputs : List Value) {fields : Entries Value}
    {children : Option (List Markdown.Token)} (h : Markdown.HasTokenType fields) :
    ShownAmong outputs (Markdown.Token.mk fields children).toElement := by
  have hwords : ∀ word ∈ Markdown.tokenTypes, Text.IsWord word.toList ∧ word ≠ "element" ∧
      word ∉ Value.outputTypes := by decide
  obtain ⟨word, htype, hmem⟩ := h
  obtain ⟨hword, hne, hout⟩ := hwords word hmem
  refine shownAmong_of_type outputs ?_ hword hne hout fun w hw => ?_
  · rw [Markdown.type?_toElement, htype, Option.getD_some]
  · rw [Markdown.Token.toElement.eq_def] at hw
    cases hw

section Engine

variable [Markdown.Engine] [Markdown.NamedEngine] {settings language : Value}

/-- The content of a cell of Markdown is shown, with nothing bare. -/
theorem shownAmong_content (outputs : List Value) {source : String} {content n : Value}
    (h : ContentOf settings source content) (hn : Below n content) : ShownAmong outputs n := by
  cases h with
  | unread =>
    rw [hn.eq_of_leaf rfl]
    exact shownAmong_of_type _ rfl (by decide) (by decide) (by decide) fun _ hw => (by cases hw)
  | read asked yes chosen parsed =>
    cases hn with
    | root =>
      exact shownAmong_of_type _ rfl (by decide) (by decide) (by decide) fun _ hw => (by cases hw)
    | child hc hn =>
      obtain ⟨fields, children, rfl, hfields⟩ := Markdown.exists_named_of_below parsed hc hn
      exact shownAmong_element outputs hfields

/-- The nodes of a cell are shown among its outputs. -/
theorem shownAmong_of_below_cell {v c n : Value} (h : CellOf settings language v c)
    (houtputs : ∀ o ∈ outputsIn v, HasBundle o ∧ HasErrorText o) (hn : Below n c) :
    ShownAmong (outputsIn v) n := by
  cases h with
  | code type listed outputs =>
    cases hn with
    | root =>
      exact shownAmong_of_type _ rfl (by decide) (by decide) (by decide)
        fun _ hw => ⟨"code", (Option.some.inj hw).symm, by decide⟩
    | child hc hn =>
      rcases List.mem_cons.mp hc with rfl | hc
      · rw [hn.eq_of_leaf rfl]
        exact shownAmong_of_type _ rfl (by decide) (by decide) (by decide)
          fun _ hw => (by cases hw)
      · -- of the nodes in a cell only an output can have something bare in its label
        obtain ⟨output, hmem, hof⟩ := exists_of_forall₂_of_mem outputs hc
        have hin := (List.mem_filter.mp hmem).1
        rw [← outputsIn_of_code type listed] at hin
        obtain ⟨hbundle, herror⟩ := houtputs output hin
        obtain ⟨hshown, hbare⟩ := isShown_output hof hbundle herror
        rw [hn.eq_of_leaf (by cases hof <;> rfl)]
        exact ⟨hshown, .inr ⟨output, hin, hbare⟩⟩
  | markdown type holds =>
    cases hn with
    | root =>
      exact shownAmong_of_type _ rfl (by decide) (by decide) (by decide)
        fun _ hw => ⟨"markdown", (Option.some.inj hw).symm, by decide⟩
    | child hc hn =>
      obtain rfl := List.mem_singleton.mp hc
      exact shownAmong_content _ holds hn
  | other =>
    cases hn with
    | root =>
      exact shownAmong_of_type _ rfl (by decide) (by decide) (by decide)
        fun _ hw => ⟨"raw", (Option.some.inj hw).symm, by decide⟩
    | child hc hn =>
      obtain rfl := List.mem_singleton.mp hc
      rw [hn.eq_of_leaf rfl]
      exact shownAmong_of_type _ rfl (by decide) (by decide) (by decide) fun _ hw => (by cases hw)

/-- The nodes of a notebook are shown among its outputs. -/
theorem shownAmong_of_below_root {root : Value} {cells entries : List Value}
    (htype : root.type? = some (.text "root")) (hword : root.attribute? "cell_type" = none)
    (hchildren : root.children? = some cells)
    (h : List.Forall₂ (CellOf settings language) entries cells)
    (houtputs : ∀ v ∈ entries, ∀ o ∈ outputsIn v, HasBundle o ∧ HasErrorText o) {n : Value}
    (hn : Below n root) : ShownAmong (entries.flatMap outputsIn) n := by
  cases hn with
  | root =>
    refine shownAmong_of_type _ htype (by decide) (by decide) (by decide) fun w hw => ?_
    rw [hword] at hw
    cases hw
  | child hc hn =>
    rw [hchildren, Option.getD_some] at hc
    obtain ⟨v, hv, hof⟩ := exists_of_forall₂_of_mem h hc
    exact (shownAmong_of_below_cell hof (houtputs v hv) hn).mono
      fun o ho => List.mem_flatMap.mpr ⟨v, hv, ho⟩

end Engine

/-! ## Lines -/

/-- The label of a node as running text, empty if it has none. -/
def labelText (v : Value) : String :=
  match v.label with
  | .ok l => l.plainText
  | .error _ => ""

/-- The text of a label is the label. -/
theorem labelText_eq {v : Value} {l : String} (h : v.label = .ok (.text l)) :
    labelText v = l := by
  rw [labelText, h]
  rfl

/-- A line of a listing read back: how deep it lies, and the label. -/
def readLine (line : List Char) : Nat × String :=
  ((line.takeWhile (· == ' ')).length / 2, String.ofList (line.dropWhile (· == ' ')))

/-- A line is read back as what it was made of, unless its label begins with a blank. -/
theorem readLine_indented {depth : Nat} {label : String}
    (h : label.toList ≠ [] ∧ label.toList.head? ≠ some ' ') :
    readLine (indented (depth, label)).toList = (depth, label) := by
  have hblank : ∀ c ∈ List.replicate (2 * depth) ' ', (c == ' ') = true := fun c hc => by
    rw [List.eq_of_mem_replicate hc]
    rfl
  obtain ⟨c, rest, hlabel⟩ := List.exists_cons_of_ne_nil h.1
  have hc : ¬ (c == ' ') = true := by
    refine fun heq => h.2 ?_
    rw [hlabel, beq_iff_eq.mp heq]
    rfl
  -- the label begins with something other than a blank, so the blanks in front are its indentation
  have htake : label.toList.takeWhile (· == ' ') = [] := by
    rw [hlabel]
    exact List.takeWhile_cons_of_neg hc
  have hdrop : label.toList.dropWhile (· == ' ') = label.toList := by
    rw [hlabel]
    exact List.dropWhile_cons_of_neg hc
  rw [readLine, indented, String.toList_append, String.toList_ofList,
    List.takeWhile_append_of_pos hblank, List.dropWhile_append_of_pos hblank, htake, hdrop,
    List.append_nil, List.length_replicate, Nat.mul_div_cancel_left _ Nat.two_pos,
    String.ofList_toList]

/-- Lines put together have the characters of the lines put together. -/
theorem toList_unlines (ls : List String) :
    (unlines ls).toList = Text.unlines (ls.map String.toList) := by
  rw [unlines, String.toList_join, Text.unlines, List.flatMap_map, List.flatMap_map]
  exact List.flatMap_congr fun l _ => String.toList_append

/-- An indented label has the line feeds of the label. -/
theorem count_indented (depth : Nat) (label : String) :
    Text.count '\n' (indented (depth, label)).toList = Text.count '\n' label.toList := by
  have hblanks : (List.replicate (2 * depth) ' ').countP (· == '\n') = 0 := by
    refine List.countP_eq_zero.mpr fun c hc heq => ?_
    rw [List.eq_of_mem_replicate hc] at heq
    cases heq
  rw [indented, String.toList_append, String.toList_ofList, Text.count, List.countP_append,
    hblanks, Nat.zero_add, Text.count]

/-- A label on one line is so with blanks in front. -/
theorem onOneLine_indented (depth : Nat) {label : String} (h : OnOneLine label.toList) :
    OnOneLine (indented (depth, label)).toList := by
  rw [indented, String.toList_append, String.toList_ofList, Text.onOneLine_append]
  refine ⟨fun c hc => ?_, h⟩
  rw [List.eq_of_mem_replicate hc]
  decide

/-! ## The listing of a request -/

/-- The lines of nodes with labels. -/
theorem linesOf_eq_map {s : Store} {spots : List Spot}
    (h : ∀ p ∈ spots, ∃ l, (s.view p.tree.item).label = .ok (.text l)) :
    Walk.linesOf s spots = .ok (spots.map fun p =>
      ⟨p.path.length, .text (labelText (s.view p.tree.item))⟩) := by
  induction spots with
  | nil => rfl
  | cons p spots ih =>
    obtain ⟨⟨l, hl⟩, hspots⟩ := List.forall_mem_cons.mp h
    rw [Walk.linesOf, List.mapM_cons, Spot.line, hl, Except.ok_bind, ← Walk.linesOf, ih hspots,
      List.map_cons, labelText_eq hl]
    rfl

section Request

variable {files : Folder} {r : TreeRequest} {settings root : Value} {log : List Log.Entry}
  {item : Item} {s : Scene Unit} {t : Tree}

/-- What is left in the store for a request is a tree of nodes that are shown. -/
theorem exists_standsIn_of_tree [Markdown.Engine] [Markdown.NamedEngine] {es : Entries Value}
    {entries : List Value}
    (hfile : fileData files (tidyPath r.notebook) = .ok (.record es))
    (hcells : Entries.get? es "cells" = some (.list entries))
    (houtputs : ∀ v ∈ entries, ∀ o ∈ outputsIn v, HasBundle o ∧ HasErrorText o)
    (hsettings : r.settings = .ok settings)
    (hread : (readAtPath files settings r.notebook).outcome = (.ok root, log))
    (htree : outcome (r.tree files) ⟨{}, [], ()⟩ = (.ok item, s)) :
    ∃ t : Tree, t.item = item ∧ t.StandsIn s.store ∧ t.height ≤ root.levels ∧
      ∀ p ∈ t.preorder r.reverse,
        ShownAmong (entries.flatMap outputsIn) (s.store.view p.tree.item) := by
  have hrun := (TreeRequest.outcome_treeWith hsettings hread r.rules).symm.trans htree
  obtain ⟨options, language, cells, -, hroot, hshapes⟩ := readAtPath_cases hfile hcells hread
  obtain ⟨ids, hholds, -, -⟩ := Store.load_holds (isTree_of_read hread) {}
  have htype : root.type? = some (.text "root") := by
    rw [hroot]
    rfl
  have hchildren : root.children? = some cells := by
    rw [hroot]
    rfl
  have hword : root.attribute? "cell_type" = none := by
    rw [hroot]
    rfl
  have hbranches : ∀ c ∈ cells, FreeOf "root" c ∧ ∃ below, c.children? = some below := by
    intro c hc
    obtain ⟨v, -, hof⟩ := exists_of_forall₂_of_mem hshapes hc
    exact ⟨freeOf_root_of_cellOf hof, by cases hof <;> exact ⟨_, rfl⟩⟩
  -- the rules have only taken children away from what was loaded
  obtain ⟨id, held, hitem, -, hheld⟩ := exists_holdsCells hholds htype hchildren hbranches
  dsimp only at hitem
  rw [hitem] at hrun
  obtain ⟨rfl, hloses⟩ := CellRule.applyAll_loses hheld
    (fun rule => TreeRequest.isFilter_of_mem_rules) rfl hrun
  obtain ⟨t, ht, hremains⟩ := hloses.exists_remains hholds
  refine ⟨t, ht.trans hitem, hremains.standsIn, hremains.height_le, fun p hp => ?_⟩
  obtain ⟨q, hq, hbelow, hqitem⟩ := hremains.held _ _ _ _ p hp
  rw [← hqitem]
  -- a label says nothing of children but how many there are
  have hsame := hloses.sameButChildren hq
  obtain ⟨hshown, hbare⟩ :=
    shownAmong_of_below_root htype hword hchildren hshapes houtputs hbelow
  rw [← hsame.barePart_eq] at hbare
  exact ⟨hsame.isShown hshown, hbare⟩

/-- The text of a listing of nodes with labels. -/
theorem treeText_lines [Markdown.Engine] [Terminal.Engine]
    (htree : outcome (r.tree files) ⟨{}, [], ()⟩ = (.ok t.item, s)) (hlayout : r.layout = .lines)
    (hlimit : t.height ≤ depthLimit) (hstand : t.StandsIn s.store)
    (hlabels : ∀ p ∈ t.preorder r.reverse,
      ∃ l, (s.store.view p.tree.item).label = .ok (.text l)) (width : Nat) :
    treeText width files r = (.ok (unlines ((t.preorder r.reverse).map fun p =>
      indented (p.path.length, labelText (s.store.view p.tree.item)))), s.log) := by
  -- the work ends with the text of the listing, in the store that making the tree has left
  have hlisting : outcome (Walk.listing depthLimit t.item r.reverse) s =
      (.ok ((t.preorder r.reverse).map fun p =>
        ⟨p.path.length, .text (labelText (s.store.view p.tree.item))⟩), s) := by
    rw [Walk.outcome_listing hlimit hstand, linesOf_eq_map hlabels]
  have hwork : outcome (r.work width files) ⟨{}, [], ()⟩ =
      (.ok (unlines ((t.preorder r.reverse).map fun p =>
        indented (p.path.length, labelText (s.store.view p.tree.item)))), s) := by
    rw [TreeRequest.work, outcome_bind_ok htree, hlayout]
    dsimp only
    rw [outcome_bind_ok hlisting, List.map_map, listingText]
    exact congrArg (fun lines => (Except.ok (unlines lines), s)) (List.map_map ..)
  exact congrArg (fun made => (made.1, made.2.log)) hwork

/-- The line feeds of a listing are those behind its lines and the bare ones in labels. -/
theorem count_listing {s : Store} {spots : List Spot}
    (hbut : ∀ p ∈ spots, OneLineBut (s.view p.tree.item).barePart
      (labelText (s.view p.tree.item))) :
    Text.count '\n' (unlines (spots.map fun p =>
        indented (p.path.length, labelText (s.view p.tree.item)))).toList =
      spots.length +
        (spots.map fun p => Text.count '\n' (s.view p.tree.item).barePart.toList).sum := by
  rw [toList_unlines, Text.count_unlines, List.length_map, List.length_map, List.map_map,
    List.map_map]
  have hcounts : ∀ p ∈ spots, Text.count '\n'
      (indented (p.path.length, labelText (s.view p.tree.item))).toList =
        Text.count '\n' (s.view p.tree.item).barePart.toList := fun p hp =>
    (count_indented _ _).trans (hbut p hp).count_eq
  exact congrArg (fun counts => spots.length + counts.sum) (List.map_congr_left hcounts)

/-- The lines of a listing are read back, if the bare parts of labels stand on one line. -/
theorem readLine_listing {s : Store} {spots : List Spot}
    (hbut : ∀ p ∈ spots, OneLineBut (s.view p.tree.item).barePart
      (labelText (s.view p.tree.item)))
    (hbare : ∀ p ∈ spots, OnOneLine (s.view p.tree.item).barePart.toList) :
    (Text.allLines (unlines (spots.map fun p =>
        indented (p.path.length, labelText (s.view p.tree.item)))).toList).map readLine =
      spots.map fun p => (p.path.length, labelText (s.view p.tree.item)) := by
  rw [toList_unlines, List.map_map, allLines_unlines, List.map_map]
  · refine List.map_congr_left fun p hp => ?_
    exact readLine_indented (hbut p hp).head?_ne
  · refine List.forall_mem_map.mpr fun p hp => ?_
    exact onOneLine_indented _ ((hbut p hp).onOneLine_iff.mpr (hbare p hp))

/-- Every node of the tree that is made for a request has a label, which stands on one line but for
what an output says bare: the name of a stream, the name and value of an error, or the types of
content. The listing has a line for each occurrence of a node, and those line feeds more that are
said bare. If none of the outputs says one bare, nor any other end of a line, the depths and labels
are read back from its lines. -/
theorem listing_lines {es : Entries Value} {entries : List Value}
    (hfile : fileData files (tidyPath r.notebook) = .ok (.record es))
    (hcells : Entries.get? es "cells" = some (.list entries))
    (houtputs : ∀ v ∈ entries, ∀ o ∈ outputsIn v, HasBundle o ∧ HasErrorText o)
    (hsettings : r.settings = .ok settings)
    (hread : (readAtPath files settings r.notebook).outcome = (.ok root, log))
    (htree : outcome (r.tree files) ⟨{}, [], ()⟩ = (.ok item, s)) :
    ∃ t : Tree, t.item = item ∧ t.StandsIn s.store ∧ t.height ≤ root.levels ∧
      (∀ p ∈ t.preorder r.reverse, let view := s.store.view p.tree.item
        view.label = .ok (.text (labelText view)) ∧ OneLineBut view.barePart (labelText view) ∧
          (view.barePart = "" ∨ ∃ v ∈ entries, ∃ o ∈ outputsIn v, view.barePart = bareText o)) ∧
      (r.layout = .lines → t.height ≤ depthLimit → ∀ width, ∃ text,
        treeText width files r = (.ok text, s.log) ∧
        Text.count '\n' text.toList = (t.preorder r.reverse).length +
          ((t.preorder r.reverse).map fun p =>
            Text.count '\n' (s.store.view p.tree.item).barePart.toList).sum ∧
        ((∀ v ∈ entries, ∀ o ∈ outputsIn v, OnOneLine (bareText o).toList) →
          (Text.allLines text.toList).map readLine = (t.preorder r.reverse).map fun p =>
            (p.path.length, labelText (s.store.view p.tree.item)))) := by
  obtain ⟨t, hitem, hstand, hheight, hshown⟩ :=
    exists_standsIn_of_tree hfile hcells houtputs hsettings hread htree
  have hlabels : ∀ p ∈ t.preorder r.reverse, ∃ l,
      (s.store.view p.tree.item).label = .ok (.text l) ∧
        OneLineBut (s.store.view p.tree.item).barePart l := fun p hp => (hshown p hp).shown.label
  -- each place has a label, which is one line but for its bare part
  have hbut : ∀ p ∈ t.preorder r.reverse, OneLineBut (s.store.view p.tree.item).barePart
      (labelText (s.store.view p.tree.item)) := fun p hp => by
    obtain ⟨l, hl, hone⟩ := hlabels p hp
    rwa [labelText_eq hl]
  refine ⟨t, hitem, hstand, hheight, fun p hp => ⟨?_, hbut p hp, ?_⟩,
    fun hlayout hlimit width => ?_⟩
  · obtain ⟨l, hl, -⟩ := hlabels p hp
    rw [labelText_eq hl, hl]
  · refine (hshown p hp).bare.imp_right fun ⟨o, ho, heq⟩ => ?_
    obtain ⟨v, hv, ho⟩ := List.mem_flatMap.mp ho
    exact ⟨v, hv, o, ho, heq⟩
  · rw [← hitem] at htree
    refine ⟨_, treeText_lines htree hlayout hlimit hstand
      (fun p hp => (hlabels p hp).imp fun _ h => h.1) width, count_listing hbut, fun hone => ?_⟩
    refine readLine_listing hbut fun p hp => ?_
    rcases (hshown p hp).bare with hempty | ⟨o, ho, heq⟩
    · rw [hempty]
      exact List.forall_mem_nil _
    · obtain ⟨v, hv, ho⟩ := List.mem_flatMap.mp ho
      rw [heq]
      exact hone v hv o ho

end Request

/-- A request for the tree of a notebook with a display, from the last child to the first. -/
def listedRequest : TreeRequest where
  notebook := "a"
  readsMarkdown := false
  extensions := []
  removesOutputs := false
  keptTags := []
  removedTags := []
  removesEmpty := false
  reverse := true
  layout := .lines

/-- Four nodes are read back from the lines of a listing. -/
theorem listing_lines_sample :
    ∃ root log item s, fileData listedFolder (tidyPath "a") =
        .ok (.record [("cells", .list [listedCell])]) ∧
      (∀ v ∈ [listedCell], ∀ o ∈ outputsIn v, HasBundle o ∧ HasErrorText o) ∧
      listedRequest.settings = .ok (Settings.usual .parseSettings) ∧
      (readAtPath listedFolder (Settings.usual .parseSettings) "a").outcome = (.ok root, log) ∧
      outcome (listedRequest.tree listedFolder) ⟨{}, [], ()⟩ = (.ok item, s) ∧
      ∃ t : Tree, t.item = item ∧ t.StandsIn s.store ∧
        (t.preorder true).map (fun p => (p.path.length, labelText (s.store.view p.tree.item))) =
          [(0, "root (1 children)"), (1, "cell[code] (2 children)"),
            (2, "displayData [text/plain, text/html]"), (2, "code ''")] := by
  obtain ⟨root, log, hread, hlevels⟩ := Except.exists_of_toOption_map (f := Value.levels)
    (r := (readAtPath listedFolder (Settings.usual .parseSettings) "a").outcome) (c := 3)
    (by decide +kernel)
  obtain ⟨item, s, htree, -⟩ := Except.exists_of_toOption_map (f := fun _ => ())
    (r := outcome (listedRequest.tree listedFolder) ⟨{}, [], ()⟩) (c := ()) (by decide +kernel)
  obtain ⟨text, told, htext, hlines⟩ := Except.exists_of_toOption_map
    (f := fun text => (Text.allLines text.toList).map readLine)
    (r := treeText 80 listedFolder listedRequest)
    (c := [(0, "root (1 children)"), (1, "cell[code] (2 children)"),
      (2, "displayData [text/plain, text/html]"), (2, "code ''")]) (by decide +kernel)
  have hin : outputsIn listedCell = [listedDisplay] := outputsIn_of_code rfl rfl
  have htype : outputType listedDisplay = .text "display_data" := rfl
  have hbare : bareText listedDisplay = "text/plain, text/html" := by decide +kernel
  have houtput : ∀ v ∈ [listedCell], ∀ o ∈ outputsIn v, o = listedDisplay := by
    intro v hv o ho
    rw [List.mem_singleton.mp hv, hin] at ho
    exact List.mem_singleton.mp ho
  have houtputs : ∀ v ∈ [listedCell], ∀ o ∈ outputsIn v, HasBundle o ∧ HasErrorText o := by
    intro v hv o ho
    rw [houtput v hv o ho]
    exact ⟨fun _ => ⟨_, rfl⟩, fun herror => absurd (htype.symm.trans herror) (by simp)⟩
  -- the bare part has no end of a line, so the printed lines can be read back
  have hone : ∀ v ∈ [listedCell], ∀ o ∈ outputsIn v, OnOneLine (bareText o).toList := by
    intro v hv o ho
    rw [houtput v hv o ho, hbare]
    decide
  have hsettings : listedRequest.settings = .ok (Settings.usual .parseSettings) := rfl
  obtain ⟨t, hitem, hstand, hheight, -, hprinted⟩ :=
    listing_lines (r := listedRequest) listedFolder_data rfl houtputs hsettings hread htree
  obtain ⟨text', htext', -, hback⟩ :=
    hprinted rfl (Nat.le_trans hheight (by rw [hlevels]; decide)) 80
  obtain rfl : text' = text := Except.ok.inj (congrArg Prod.fst (htext'.symm.trans htext))
  exact ⟨root, log, item, s, listedFolder_data, houtputs, hsettings, hread, htree, t, hitem, hstand,
    (hback hone).symm.trans hlines⟩

/-- A folder with a notebook that has an error with two lines in its value. -/
def erringFolder : Folder :=
  [(["a"], ("\x7b\"cells\":[\x7b\"cell_type\":\"code\",\"outputs\":" ++
    "[\x7b\"output_type\":\"error\",\"ename\":\"E\",\"evalue\":\"a\\nb\"\x7d]\x7d]\x7d").toUTF8)]

set_option maxRecDepth 50000 in
/-- The file holds a notebook with an error whose value has two lines. -/
theorem erringFolder_data : fileData erringFolder (tidyPath "a") =
    .ok (.record [("cells", .list [.record [("cell_type", .text "code"),
      ("outputs", .list [.record [("output_type", .text "error"), ("ename", .text "E"),
        ("evalue", .text "a\nb")]])]])]) := rfl

/-- The label of the error stands on two lines, so the listing of four nodes has five. -/
theorem listing_breaks :
    let made := outcome (listedRequest.tree erringFolder) ⟨{}, [], ()⟩
    fileData erringFolder (tidyPath "a") =
        .ok (.record [("cells", .list [.record [("cell_type", .text "code"),
          ("outputs", .list [.record [("output_type", .text "error"), ("ename", .text "E"),
            ("evalue", .text "a\nb")]])]])]) ∧
      made.2.store.nodes.size = 4 ∧
      labelText (made.2.store.view (.node ⟨1⟩)) = "error E: a\nb" ∧
      ¬ OnOneLine "error E: a\nb".toList ∧
      (treeText 80 erringFolder listedRequest).1.toOption.map
        (fun text => (Text.allLines text.toList).length) = some 5 := by
  refine ⟨erringFolder_data, ?_, ?_, ?_, ?_⟩ <;> decide +kernel

end NotebookTree.Command
