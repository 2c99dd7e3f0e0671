import NotebookTree.Html.Writer
import NotebookTree.Proofs.Html.Reading
import NotebookTree.Proofs.Sequence
import NotebookTree.Settings

/-!
# The tags of a document

The tags of a document are those that its events open: each stands in the text that the document was
read from, and has its attributes as they are kept. In particular the reader brings in no body of
its own: if a document has one, its text writes it, and a fragment is the document as it was read.

## Main definitions

* `Item.Has`: a tag is a part of a document, or within it.
* `IsOpenedIn`: a tag that a text opens.
* `htmlSettings`: settings under which markup is read as a fragment, or as a whole document.

## Main statements

* `tagsIn_of_parseItems`: where the tags of a document are from.
* `fragmentOf_eq`: a fragment is all of the document.
* `parseTree_fragment`: a fragment has the tree of the whole document.
-/

namespace NotebookTree.Html

/-- The attributes of a tag. -/
abbrev Attributes := List (String × AttributeValue)

/-- A tag with a name and attributes is a part of a document, or within it. -/
inductive Item.Has (name : List Char) (attributes : Attributes) : Item → Prop
  | here {children : List Item} : Item.Has name attributes (.tag name attributes children)
  | within {other : List Char} {others : Attributes} {children : List Item} {i : Item}
      (hi : i ∈ children) (h : Item.Has name attributes i) :
      Item.Has name attributes (.tag other others children)

/-- All tags in a part of a document have a property. -/
def Item.TagsIn (P : List Char → Attributes → Prop) (i : Item) : Prop :=
  ∀ name attributes, i.Has name attributes → P name attributes

/-! ## Building -/

namespace Builder

variable {P : List Char → Attributes → Prop} {b : Builder}

/-- All tags that have been built or are open have a property. -/
def TagsIn (P : List Char → Attributes → Prop) (b : Builder) : Prop :=
  (∀ i ∈ b.top, i.TagsIn P) ∧
    ∀ t ∈ b.open', P t.name t.attributes ∧ ∀ i ∈ t.content, i.TagsIn P

/-- What opens a tag opens one with a property. -/
def OpensIn (P : List Char → Attributes → Prop) : Event → Prop
  | .opened name given => P name (attributesOf name given)
  | .lone name given => P name (attributesOf name given)
  | _ => True

/-- An item whose tags pass is placed among others whose tags do. -/
theorem tagsIn_place (h : b.TagsIn P) {i : Item} (hi : i.TagsIn P) : (b.place i).TagsIn P := by
  rw [place]
  split
  · exact ⟨List.forall_mem_cons.mpr ⟨hi, h.1⟩, h.2⟩
  · rename_i t ts hopen
    obtain ⟨htop, hall⟩ := h
    rw [hopen] at hall
    obtain ⟨ht, hts⟩ := List.forall_mem_cons.mp hall
    exact ⟨htop, List.forall_mem_cons.mpr ⟨⟨ht.1, List.forall_mem_cons.mpr ⟨hi, ht.2⟩⟩, hts⟩⟩

/-- Texts that are put together to one item bring no tags. -/
theorem tagsIn_flush (h : b.TagsIn P) : b.flush.TagsIn P := by
  rw [flush]
  split
  · exact h
  · have hplaced : TagsIn P { b with pending := none } := h
    exact tagsIn_place hplaced fun _ _ htag => nomatch htag

/-- A comment, a doctype or the like brings no tags that do not pass. -/
theorem tagsIn_placeSpecial (h : b.TagsIn P) {make : List Char → Item}
    (hmake : ∀ s, (make s).TagsIn P) (s : List Char) : (b.placeSpecial make s).TagsIn P :=
  tagsIn_place (tagsIn_flush h) (hmake _)

/-- A tag that is closed is there besides those within it. -/
theorem tagsIn_close {t : OpenTag} (ht : P t.name t.attributes)
    (hcontent : ∀ i ∈ t.content, i.TagsIn P) : t.close.TagsIn P := by
  intro name attributes htag
  cases htag with
  | here => exact ht
  | within hi h => exact hcontent _ (List.mem_reverse.mp hi) name attributes h

/-- Closing the innermost tag places it, with the name and attributes that it was opened with. -/
theorem tagsIn_closeInnermost (h : b.TagsIn P) : b.closeInnermost.TagsIn P := by
  rw [closeInnermost]
  split
  · exact h
  · rename_i t ts hopen
    obtain ⟨htop, hall⟩ := h
    rw [hopen] at hall
    obtain ⟨ht, hts⟩ := List.forall_mem_cons.mp hall
    have hrest : TagsIn P { b with open' := ts } := ⟨htop, hts⟩
    exact tagsIn_place hrest (tagsIn_close ht.1 ht.2)

/-- Closing down to a name closes innermost tags, one after another. -/
theorem tagsIn_closeDownTo (name : List Char) (fuel : Nat) (h : b.TagsIn P) :
    (closeDownTo name fuel b).TagsIn P := by
  induction fuel generalizing b with
  | zero => exact h
  | succ fuel ih =>
    rw [closeDownTo]
    split
    · exact h
    · split
      · exact tagsIn_closeInnermost h
      · exact ih (tagsIn_closeInnermost h)

/-- An end tag closes tags, or is dropped. -/
theorem tagsIn_closeTag (h : b.TagsIn P) (name : List Char) : (b.closeTag name).TagsIn P := by
  rw [closeTag]
  split
  · exact tagsIn_closeDownTo _ _ (tagsIn_flush h)
  · exact tagsIn_flush h

/-- Closing by name opens nothing. -/
theorem tagsIn_closeNamed (h : b.TagsIn P) (name : List Char) : (b.closeNamed name).TagsIn P := by
  rw [closeNamed]
  split
  · exact h
  · exact tagsIn_closeTag h name

/-- The tags pass when the one that is opened does. -/
theorem tagsIn_openTag (h : b.TagsIn P) {name : List Char}
    {given : List (List Char × Option (List Char))} (hname : P name (attributesOf name given)) :
    (b.openTag name given).TagsIn P :=
  ⟨(tagsIn_flush h).1, List.forall_mem_cons.mpr
    ⟨⟨hname, List.forall_mem_nil _⟩, (tagsIn_flush h).2⟩⟩

/-- An event brings in no tag but its own. -/
theorem tagsIn_step (h : b.TagsIn P) {e : Event} (he : OpensIn P e) : (b.step e).TagsIn P := by
  have hspecial : ∀ {make : List Char → Item} (s : List Char),
      (∀ s name attributes, ¬(make s).Has name attributes) → (b.placeSpecial make s).TagsIn P := by
    intro make s hmake
    exact tagsIn_placeSpecial h (fun s name attributes htag =>
      absurd htag (hmake s name attributes)) s
  -- only a start tag brings a tag; the other events close tags or place what has none
  cases e with
  | opened name given =>
    have hopened : (b.openTag name given).TagsIn P := tagsIn_openTag h he
    rw [step]
    dsimp only
    split
    · exact tagsIn_closeTag hopened name
    · exact hopened
  | lone name given => exact tagsIn_closeNamed (tagsIn_openTag h he) name
  | closed name => exact tagsIn_closeNamed h name
  | data s => exact h
  | number n => exact h
  | name s => exact h
  | comment s => exact hspecial s fun _ _ _ htag => nomatch htag
  | doctype s => exact hspecial s fun _ _ _ htag => nomatch htag
  | marked s =>
    rw [step]
    split
    · exact hspecial _ fun _ _ _ htag => nomatch htag
    · exact hspecial _ fun _ _ _ htag => nomatch htag
  | instruction s => exact hspecial s fun _ _ _ htag => nomatch htag

/-- The tags pass after any number of events that open only such tags. -/
theorem tagsIn_foldl {events : List Event} (h : b.TagsIn P) (hevents : ∀ e ∈ events, OpensIn P e) :
    (events.foldl step b).TagsIn P := by
  induction events generalizing b with
  | nil => exact h
  | cons e events ih =>
    obtain ⟨he, hevents⟩ := List.forall_mem_cons.mp hevents
    exact ih (tagsIn_step h he) hevents

/-- Closing all that is open at the end brings no new tag. -/
theorem tagsIn_closeAll (fuel : Nat) (h : b.TagsIn P) : (finish.closeAll fuel b).TagsIn P := by
  induction fuel generalizing b with
  | zero => exact h
  | succ fuel ih =>
    rw [finish.closeAll]
    split
    · exact h
    · exact ih (tagsIn_closeInnermost h)

/-- The tags of the finished items pass. -/
theorem tagsIn_finish (h : b.TagsIn P) : ∀ i ∈ b.finish, i.TagsIn P :=
  fun i hi => (tagsIn_closeAll _ (tagsIn_flush h)).1 i (List.mem_reverse.mp hi)

end Builder

/-- A tag that a text opens: its name stands there, and its attributes are kept. -/
def IsOpenedIn (source name : List Char) (attributes : Attributes) : Prop :=
  StandsIn source name ∧ ∃ given, attributes = Builder.attributesOf name given

/-- The tags of a document are opened in the text that it was read from. -/
theorem tagsIn_of_parseItems {source : List Char} {items : List Item}
    (h : parseItems source = some items) : ∀ i ∈ items, i.TagsIn (IsOpenedIn source) := by
  obtain ⟨events, hevents, rfl⟩ := Option.map_eq_some_iff.mp h
  have hstart : Builder.TagsIn (IsOpenedIn source) {} :=
    ⟨List.forall_mem_nil _, List.forall_mem_nil _⟩
  refine Builder.tagsIn_finish (Builder.tagsIn_foldl hstart fun e he => ?_)
  have hstands := standsIn_of_readEvents hevents e he
  cases e with
  | opened name given => exact ⟨hstands name rfl, given, rfl⟩
  | lone name given => exact ⟨hstands name rfl, given, rfl⟩
  | _ => trivial

/-! ## Bodies -/

mutual

/-- A tag that is found in an item is there with some attributes. -/
theorem exists_has_of_findTag? {name : List Char} : ∀ {i : Item} {children : List Item},
    findTag? name i = some children → ∃ attributes, i.Has name attributes
  | .tag n _ inner, children, h => by
    rw [findTag?] at h
    split at h
    · rename_i hn
      rw [beq_iff_eq.mp hn]
      exact ⟨_, .here⟩
    · obtain ⟨i, hi, attributes, htag⟩ := exists_has_of_findTagIn? h
      exact ⟨attributes, .within hi htag⟩
  | .text _, _, h | .comment _, _, h | .doctype _, _, h | .cdata _, _, h | .instruction _, _, h
  | .declaration _, _, h => nomatch h

/-- A tag that is found among items is in one of them. -/
theorem exists_has_of_findTagIn? {name : List Char} : ∀ {items : List Item} {children : List Item},
    findTagIn? name items = some children →
      ∃ i ∈ items, ∃ attributes, i.Has name attributes
  | [], _, h => nomatch h
  | i :: is, children, h => by
    rw [findTagIn?] at h
    split at h
    · rename_i hi
      exact ⟨i, List.mem_cons_self, exists_has_of_findTag? hi⟩
    · obtain ⟨j, hj, htag⟩ := exists_has_of_findTagIn? h
      exact ⟨j, List.mem_cons_of_mem _ hj, htag⟩

end

/-- A text is split before what stands in it. -/
theorem isSome_splitBefore? {needle cs : List Char} (h : needle <:+: cs) :
    (Text.splitBefore? needle cs).isSome = true := by
  induction cs with
  | nil => rw [List.infix_nil.mp h]; rfl
  | cons c cs ih =>
    rw [Text.splitBefore?]
    split
    · rfl
    · rename_i hprefix
      rw [Option.isSome_map]
      rcases List.infix_cons_iff.mp h with h | h
      · exact absurd (List.isPrefixOf_iff_prefix.mpr h) hprefix
      · exact ih h

/-- The lower case form of a text ends with that of each end of the text, behind what stands in front
of it. -/
theorem exists_lowerBehind_append (before cs ds : List Char) : ∃ front,
    Text.lowerBehind before (cs ++ ds) = front ++ Text.lowerBehind (cs.reverse ++ before) ds := by
  induction cs generalizing before with
  | nil => exact ⟨[], rfl⟩
  | cons c cs ih =>
    obtain ⟨front, hfront⟩ := ih (c :: before)
    refine ⟨Text.lowerBetween before c (cs ++ ds) ++ front, ?_⟩
    rw [List.cons_append, Text.lowerBehind, hfront, List.append_assoc, List.reverse_cons,
      List.append_assoc, List.singleton_append]

/-- Without a capital sigma it does not matter what stands around a text. -/
theorem lowerBehind_append_of_not_mem {cs : List Char} (h : 'Σ' ∉ cs) (before ds : List Char) :
    Text.lowerBehind before (cs ++ ds) =
      cs.flatMap Text.lowerChar ++ Text.lowerBehind (cs.reverse ++ before) ds := by
  induction cs generalizing before with
  | nil => rfl
  | cons c cs ih =>
    obtain ⟨hc, hcs⟩ := not_or.mp (mt List.mem_cons.mpr h)
    have hother : ¬ (c == 'Σ') = true := fun heq => hc (beq_iff_eq.mp heq).symm
    rw [List.cons_append, Text.lowerBehind, Text.lowerBetween, if_neg hother, ih hcs,
      List.flatMap_cons, List.append_assoc, List.reverse_cons, List.append_assoc,
      List.singleton_append]

/-- A capital sigma becomes a small one. -/
theorem mem_lowerBehind_of_mem {cs : List Char} (h : 'Σ' ∈ cs) (before : List Char) :
    'σ' ∈ Text.lowerBehind before cs ∨ 'ς' ∈ Text.lowerBehind before cs := by
  induction cs generalizing before with
  | nil => cases h
  | cons c cs ih =>
    rw [Text.lowerBehind, List.mem_append, List.mem_append]
    rcases List.mem_cons.mp h with rfl | h
    · rw [Text.lowerBetween, if_pos (by decide)]
      split
      · exact .inr (.inl (List.mem_singleton.mpr rfl))
      · exact .inl (.inl (List.mem_singleton.mpr rfl))
    · exact (ih h (c :: before)).imp .inr .inr

/-- A name that stands in a text stands there in lower case, unless a sigma makes it matter what
stands around it. -/
theorem occursIn_of_standsIn {cs name : List Char} (h : StandsIn cs name) (hsmall : 'σ' ∉ name)
    (hfinal : 'ς' ∉ name) : occursIn ('<' :: name) (Text.lower cs) = true := by
  obtain ⟨raw, ⟨before, behind, rfl⟩, rfl⟩ := h
  have hraw : 'Σ' ∉ raw := fun hmem => (mem_lowerBehind_of_mem hmem []).elim hsmall hfinal
  have hname : Text.lower raw = raw.flatMap Text.lowerChar := by
    have hlower := lowerBehind_append_of_not_mem hraw [] []
    rwa [List.append_nil, Text.lowerBehind, List.append_nil] at hlower
  have hopen : 'Σ' ∉ '<' :: raw := by simpa using hraw
  obtain ⟨front, hfront⟩ := exists_lowerBehind_append [] before ('<' :: raw ++ behind)
  rw [lowerBehind_append_of_not_mem hopen] at hfront
  have hlower : Text.lower (before ++ '<' :: raw ++ behind) = front ++ '<' :: Text.lower raw ++
      Text.lowerBehind (('<' :: raw).reverse ++ (before.reverse ++ [])) behind := by
    rw [hname, List.append_assoc, List.append_assoc]
    exact hfront
  exact isSome_splitBefore? ⟨front, _, hlower.symm⟩

/-- What is kept of a document as a fragment is all of it. -/
theorem fragmentOf_eq {source : List Char} {items : List Item}
    (h : parseItems source = some items) : fragmentOf source items = items := by
  rw [fragmentOf]
  split
  · rename_i children hbody
    obtain ⟨i, hi, attributes, htag⟩ := exists_has_of_findTagIn? hbody
    exact if_pos (occursIn_of_standsIn (tagsIn_of_parseItems h i hi _ _ htag).1 (by decide)
      (by decide))
  · rfl

/-! ## Fragments -/

/-- Settings under which markup is read as a fragment, or as a whole document. -/
def htmlSettings (fragment : Value) : Value :=
  .node .htmlSettings [("fragment", fragment), ("html_parser", .text "html.parser")]

/-- The settings of the parser are made from the mode alone. -/
theorem make_htmlSettings (fragment : Value) :
    Settings.make .htmlSettings [("fragment", fragment)] = .ok (htmlSettings fragment) := rfl

/-- What is made of a text under these settings. -/
theorem parseTree_htmlSettings (source : String) (fragment : Value) :
    parseTree (.text source) (htmlSettings fragment) = match parseItems source.toList with
      | none => .error .badMarkup
      | some items => .ok (rootOf
          (if fragment.isTruthy then fragmentOf source.toList items else items)) := by
  have hbackend : (!(Value.text "html.parser").equals (.text "html.parser")) = false := by
    rw [Value.equals_text_iff.mpr rfl]
    rfl
  have hname : (htmlSettings fragment).field "html_parser" = .ok (.text "html.parser") := rfl
  have hfragment : (htmlSettings fragment).field "fragment" = .ok fragment := rfl
  unfold parseTree
  rw [if_pos (show (htmlSettings fragment).isTruthy = true from rfl)]
  dsimp only
  rw [hname, Except.ok_bind, hbackend, if_neg Bool.false_ne_true, hfragment]
  cases parseItems source.toList <;> rfl

/-- Markup has one tree, whether it is read as a fragment or as a whole document: that of all parts
of the document. However deep a body lies, the text opens it, and so nothing is left out around it. -/
theorem parseTree_fragment (source : String) (fragment whole : Value) :
    parseTree (.text source) (htmlSettings fragment) =
        parseTree (.text source) (htmlSettings whole) ∧
      ∀ items, parseItems source.toList = some items →
        parseTree (.text source) (htmlSettings fragment) = .ok (rootOf items) ∧
          ∀ i ∈ items, ∀ attributes, i.Has "body".toList attributes →
            occursIn "<body".toList (Text.lower source.toList) = true := by
  -- the items are the same in both modes, and the root keeps them all in both
  have htree : ∀ items, parseItems source.toList = some items → ∀ settings : Value,
      parseTree (.text source) (htmlSettings settings) = .ok (rootOf items) := by
    intro items hitems settings
    rw [parseTree_htmlSettings, hitems]
    dsimp only
    rw [fragmentOf_eq hitems, ite_self]
  constructor
  · cases hitems : parseItems source.toList with
    | none => rw [parseTree_htmlSettings, parseTree_htmlSettings, hitems]
    | some items => rw [htree items hitems, htree items hitems]
  · intro items hitems
    refine ⟨htree items hitems fragment, fun i hi attributes hbody => ?_⟩
    exact occursIn_of_standsIn (tagsIn_of_parseItems hitems i hi _ _ hbody).1 (by decide) (by decide)

example : (parseTree (.text "a<BoDy>b") (htmlSettings (.bool true)) >>= writeTree).toOption =
    some "a<body>b</body>" := by decide +kernel

end NotebookTree.Html
