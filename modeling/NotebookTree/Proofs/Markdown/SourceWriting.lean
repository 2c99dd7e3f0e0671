import NotebookTree.Markdown.SourceWriter
import NotebookTree.Proofs.Markdown.BasicBlocks
import NotebookTree.Proofs.Markdown.Elements
import NotebookTree.Proofs.Markdown.Return

/-!
# Writing back what has been read

A tree that a text has been read into is written as source by way of tokens that are the same as
those of the text. What the text defines does not come with them: a tree has no place for it. So a
document without extensions, of which each token can be written, loses its definitions of link
targets and nothing else.

## Main definitions

* `Writes`: a token that can be written wherever it stands, but among the items of a list.
* `definitionsOf`: what a document defines.

## Main results

* `toSource_parse`: what becomes of a document that is read and written back.
-/

namespace NotebookTree.Markdown

open Text (isBlank)

/-! ## The same tokens -/

/-- Tokens that are the same have the same fields. -/
theorem Token.Same.get? : ∀ {t t' : Token}, t.Same t' → ∀ name, t'.get? name = t.get? name
  | .mk _ _, .mk _ _, h => h.1

section Fields

variable {t t' : Token} (h : ∀ name, t'.get? name = t.get? name)
include h

/-- A field that must be there is read alike from both. -/
theorem need_congr (name : String) : t'.need name = t.need name := by
  rw [Token.need, Token.need, h]

/-- An attribute that may be there is read alike from both. -/
theorem attribute?_congr (name : String) : t'.attribute? name = t.attribute? name := by
  rw [Token.attribute?, Token.attribute?, need_congr h]

/-- An attribute that must be there is read alike from both. -/
theorem needAttribute_congr (name : String) : t'.needAttribute name = t.needAttribute name := by
  rw [Token.needAttribute, Token.needAttribute, attribute?_congr h]

/-- A list is tight in both or in neither. -/
theorem isTight_congr : isTight t' = isTight t := by
  rw [isTight, isTight, h]

/-- The box of a task is the same for both. -/
theorem boxOf_congr : boxOf t' = boxOf t := by
  rw [boxOf, boxOf, h, h]

/-- Both are blank lines or neither is. -/
theorem isBlankToken_congr : isBlankToken t' = isBlankToken t := by
  rw [isBlankToken, isBlankToken, h]

/-- The place inside is the same for both. -/
theorem inside_congr (type : String) (place : Place) : place.inside type t' = place.inside type t := by
  unfold Place.inside
  rw [isTight_congr h]

/-- The marks of the items are the same for both. -/
theorem itemLeads_congr (count : Nat) : itemLeads t' count = itemLeads t count := by
  simp only [itemLeads, needAttribute_congr h, attribute?_congr h, need_congr h]

/-- A token without children is written alike from both. -/
theorem sourceOfLone?_congr (type : String) : sourceOfLone? t' type = sourceOfLone? t type := by
  simp only [sourceOfLone?, need_congr h, h]

/-- A link is written alike from both. -/
theorem writeLink_congr (text : List Char) : writeLink t' text = writeLink t text := by
  simp only [writeLink, needAttribute_congr h, attribute?_congr h, h]

/-- A token with children is written alike from both, around the same parts. -/
theorem sourceOfHolder_congr (type : String) (nested : Option Bool) (leads parts : List (List Char)) :
    sourceOfHolder t' type nested leads parts = sourceOfHolder t type nested leads parts := by
  simp only [sourceOfHolder, needAttribute_congr h, writeLink_congr h, boxOf_congr h]

end Fields

/-- Lists of tokens that are the same have the same length. -/
theorem SameTokens.length_eq : ∀ {ts ts' : List Token}, SameTokens ts ts' → ts'.length = ts.length
  | [], [], _ => rfl
  | _ :: _, _ :: _, h => congrArg (· + 1) (SameTokens.length_eq h.2)
  | [], _ :: _, h => h.elim
  | _ :: _, [], h => h.elim

/-- What is the same for the same tokens is the same for lists of them. -/
theorem SameTokens.map_eq {α : Type} {f : Token → α} (hf : ∀ t t' : Token, t.Same t' → f t' = f t) :
    ∀ {ts ts' : List Token}, SameTokens ts ts' → ts'.map f = ts.map f
  | [], [], _ => rfl
  | t :: _, t' :: _, h => by
    rw [List.map_cons, List.map_cons, hf t t' h.1, SameTokens.map_eq hf h.2]
  | [], _ :: _, h => h.elim
  | _ :: _, [], h => h.elim

/-- A row of alignments is written from the attributes of its cells. -/
theorem SameTokens.alignRow_eq {ts ts' : List Token} (h : SameTokens ts ts') :
    alignRow ts' = alignRow ts := by
  unfold alignRow
  rw [h.map_eq fun t t' ht => by rw [ht.get? "attrs"]]

mutual

/-- A token is written back like any that is the same. -/
theorem writeSourceToken_same : ∀ (place : Place) {t t' : Token}, t.Same t' →
    writeSourceToken place t' = writeSourceToken place t
  | place, .mk fields children, .mk fields' children', h => by
    have hget := h.get?
    obtain ⟨-, hchildren⟩ := h
    -- the parts are the same by the recursion, and all else that is written is read from the fields
    have hparts := fun place skip => writeSourceParts_same place skip hchildren
    cases children with
    | none =>
      cases children' with
      | none =>
        simp only [writeSourceToken, hget, boxOf_congr hget, inside_congr hget,
          sourceOfLone?_congr hget, itemLeads_congr hget, sourceOfHolder_congr hget]
      | some ts' => exact hchildren.elim
    | some ts =>
      cases children' with
      | none => exact hchildren.elim
      | some ts' =>
        simp only [writeSourceToken, hget, boxOf_congr hget, inside_congr hget, hparts,
          sourceOfLone?_congr hget, itemLeads_congr hget, sourceOfHolder_congr hget, childrenOf,
          Option.getD_some, Except.ok_bind, hchildren.length_eq, hchildren.alignRow_eq]

/-- The parts of tokens that are the same are written alike. -/
theorem writeSourceParts_same : ∀ (place : Place) (skip : Bool)
    {children children' : Option (List Token)}, SameChildren children children' →
    writeSourceParts place skip children' = writeSourceParts place skip children
  | _, _, none, none, _ => rfl
  | place, skip, some _, some _, h => writeSourceList_same place skip h
  | _, _, none, some _, h => h.elim
  | _, _, some _, none, h => h.elim

/-- Tokens are written back like any that are the same. -/
theorem writeSourceList_same : ∀ (place : Place) (skip : Bool) {ts ts' : List Token},
    SameTokens ts ts' → writeSourceList place skip ts' = writeSourceList place skip ts
  | _, _, [], [], _ => rfl
  | place, skip, t :: ts, t' :: ts', h => by
    rw [writeSourceList, writeSourceList, writeSourceToken_same place h.1,
      writeSourceList_same place skip h.2, isBlankToken_congr h.1.get?]
  | _, _, [], _ :: _, h => h.elim
  | _, _, _ :: _, [], h => h.elim

end

/-! ## Tokens that can be written -/

/-- A token that can be written wherever it stands, but among the items of a list. -/
def Writes (t : Token) : Prop :=
  ∀ place : Place, place.isItem = false → ∃ text, writeSourceToken place t = .ok text

/-- Tokens that can be written can be written one after another, outside of items. -/
theorem exists_writeSourceList {ts : List Token} (h : ∀ t ∈ ts, Writes t) {place : Place}
    (hplace : place.isItem = false) (skip : Bool) :
    ∃ parts, writeSourceList place skip ts = .ok parts := by
  induction ts with
  | nil => exact ⟨[], rfl⟩
  | cons t ts ih =>
    obtain ⟨ht, hts⟩ := List.forall_mem_cons.mp h
    obtain ⟨text, htext⟩ := ht place hplace
    obtain ⟨parts, hparts⟩ := ih hts
    rw [writeSourceList, htext, hparts]
    split <;> exact ⟨_, rfl⟩

/-- Only directly in a list something stands among its items. -/
theorem isItem_inside {type : String} (h : type ≠ "list") (t : Token) (place : Place) :
    (place.inside type t).isItem = false := by
  unfold Place.inside
  split
  · exact absurd rfl h
  all_goals rfl

section Kinds

variable {fields : Entries Value} {children : Option (List Token)} {ts : List Token} {type : String}

/-- A token that needs nothing but itself. -/
theorem writes_lone {text : List Char} (htype : fields.get? "type" = some (.text type))
    (hlone : sourceOfLone? (.mk fields children) type = some (.ok text)) :
    Writes (.mk fields children) := by
  intro place hplace
  refine ⟨text, ?_⟩
  rw [writeSourceToken]
  simp [Token.get?, Token.fields, htype, hplace, hlone]

/-- A token that holds others. -/
theorem writes_holder (htype : fields.get? "type" = some (.text type))
    (hlone : sourceOfLone? (.mk fields (some ts)) type = none) (hholder : isHolder type = true)
    (hlist : type ≠ "list") (hhead : type ≠ "table_head") (hts : ∀ t ∈ ts, Writes t)
    (hown : ∀ nested parts, ∃ text,
      sourceOfHolder (.mk fields (some ts)) type nested [] parts = .ok text) :
    Writes (.mk fields (some ts)) := by
  intro place hplace
  obtain ⟨parts, hparts⟩ := exists_writeSourceList hts
    (isItem_inside hlist (.mk fields (some ts)) place)
    (type == "list_item" || type == "task_list_item")
  obtain ⟨text, htext⟩ := hown place.nested parts
  refine ⟨text, ?_⟩
  rw [writeSourceToken]
  simp [Token.get?, Token.fields, htype, hplace, hlone, hholder, hlist, hhead, writeSourceParts,
    hparts, htext]

/-- A list is written from the marks of its items and the items. -/
theorem writeSourceToken_list (htype : fields.get? "type" = some (.text "list")) {place : Place}
    (hplace : place.isItem = false) : writeSourceToken place (.mk fields (some ts)) = (do
      let leads ← itemLeads (.mk fields (some ts)) ts.length
      let parts ← writeSourceList (.list (isTight (.mk fields (some ts)))) false ts
      sourceOfHolder (.mk fields (some ts)) "list" place.nested leads parts) := by
  rw [writeSourceToken]
  simp only [Token.get?, Token.fields, htype, hplace]
  rfl

end Kinds

/-! ## Inlines -/

/-- A text is plain text. -/
theorem plainOf_ofChars (s : List Char) : plainOf (ofChars s) = .ok s := by
  rw [ofChars, plainOf, String.toList_ofList]

/-- A text, or nothing in its place. -/
def IsTextOrNull (v : Value) : Prop := v = .null ∨ ∃ s, v = ofChars s

/-- A text that counts as true is plain text. -/
theorem exists_plainOf {v : Value} (h : IsTextOrNull v) (htruthy : v.isTruthy = true) :
    ∃ s, plainOf v = .ok s := by
  obtain rfl | ⟨s, rfl⟩ := h
  · cases htruthy
  · exact ⟨s, plainOf_ofChars s⟩

/-- A link can be written if it has a target, and a label and a title at most. -/
theorem exists_writeLink {t : Token} {url : List Char} {title : Option Value}
    (hlabel : IsTextOrNull ((t.get? "label").getD .null))
    (hurl : t.needAttribute "url" = .ok (ofChars url)) (htitle : t.attribute? "title" = .ok title)
    (hshown : IsTextOrNull (title.getD .null)) (text : List Char) :
    ∃ out, writeLink t text = .ok out := by
  rw [writeLink]
  dsimp only
  -- a link with a label is written by it, any other by its target and title
  by_cases hl : ((t.get? "label").getD .null).isTruthy = true
  · obtain ⟨label, hlabel⟩ := exists_plainOf hlabel hl
    rw [if_pos hl, hlabel]
    exact ⟨_, rfl⟩
  · rw [if_neg hl, hurl, htitle, Except.ok_bind, plainOf_ofChars, Except.ok_bind, Except.ok_bind]
    split
    · exact ⟨_, rfl⟩
    split
    · rename_i ht
      obtain ⟨s, hs⟩ := exists_plainOf hshown ht
      rw [hs]
      exact ⟨_, rfl⟩
    · exact ⟨_, rfl⟩

/-- The token of a link can be written. -/
theorem exists_writeLink_linkToken (type : String) (url : List Char) (title : Option (List Char))
    (reference : Option (List Char × List Char)) (children : List Token) (text : List Char) :
    ∃ out, writeLink (linkToken type url title reference children) text = .ok out := by
  cases reference with
  | none =>
    cases title with
    | none => exact exists_writeLink (.inl rfl) rfl rfl (.inl rfl) text
    | some t => exact exists_writeLink (.inl rfl) rfl rfl (.inr ⟨t, rfl⟩) text
  | some reference =>
    cases title with
    | none => exact exists_writeLink (.inr ⟨_, rfl⟩) rfl rfl (.inl rfl) text
    | some t => exact exists_writeLink (.inr ⟨_, rfl⟩) rfl rfl (.inr ⟨t, rfl⟩) text

/-- The tokens of inline texts can be written when each can. -/
theorem writes_inlineTokens {is : List Inline} (h : ∀ i ∈ is, Writes i.toToken) :
    ∀ t ∈ inlineTokens is, Writes t := by
  induction is with
  | nil => exact List.forall_mem_nil _
  | cons i is ih =>
    obtain ⟨hi, his⟩ := List.forall_mem_cons.mp h
    exact List.forall_mem_cons.mpr ⟨hi, ih his⟩

/-- The token of a basic inline can be written. -/
theorem writes_inline {i : Inline} (h : i.Basic) : Writes i.toToken := by
  induction h with
  | text s => exact writes_lone rfl rfl
  | emphasis _ ih =>
    exact writes_holder rfl rfl rfl (by decide) (by decide) (writes_inlineTokens ih)
      fun _ _ => ⟨_, rfl⟩
  | strong _ ih =>
    exact writes_holder rfl rfl rfl (by decide) (by decide) (writes_inlineTokens ih)
      fun _ _ => ⟨_, rfl⟩
  | codespan s => exact writes_lone rfl rfl
  | link url title reference _ ih =>
    have hown := exists_writeLink_linkToken "link" url title reference
    cases reference <;>
      exact writes_holder rfl rfl rfl (by decide) (by decide) (writes_inlineTokens ih)
        fun _ parts => hown _ parts.flatten
  -- an image is written as a link with a mark in front of it
  | image url title reference _ ih =>
    have hown : ∀ children nested parts, ∃ text,
        sourceOfHolder (linkToken "image" url title reference children) "image" nested [] parts =
          .ok text := by
      intro children nested parts
      obtain ⟨out, hout⟩ := exists_writeLink_linkToken "image" url title reference children
        parts.flatten
      refine ⟨'!' :: out, ?_⟩
      show (writeLink _ _ >>= fun out => pure ('!' :: out)) = _
      rw [hout]
      rfl
    cases reference <;>
      exact writes_holder rfl rfl rfl (by decide) (by decide) (writes_inlineTokens ih) (hown _)
  | lineBreak => exact writes_lone rfl rfl
  | softBreak => exact writes_lone rfl rfl
  | html s => exact writes_lone rfl rfl

/-! ## Blocks -/

/-- Text is read to tokens that can be written, without abbreviations. -/
theorem readsQuietly_readText {defs : Definitions} (hdefs : defs.abbreviations = [])
    (text : List Char) : ReadsQuietly (fun ts => ∀ t ∈ ts, Writes t) (readText ⟨[], defs⟩ text) :=
  readsQuietly_bind (readInlines_basic hdefs _) fun _ his =>
    readsQuietly_pure (writes_inlineTokens fun i hi => writes_inline (his i hi))

/-- Blocks are read to tokens with a property when each is. -/
theorem readsQuietly_blockTokens {P : Token → Prop} {ctx : Context} {bs : List Block}
    (h : ∀ b ∈ bs, ReadsQuietly P (b.toToken ctx)) :
    ReadsQuietly (fun ts => ∀ t ∈ ts, P t) (blockTokens ctx bs) := by
  induction bs with
  | nil => exact readsQuietly_pure (List.forall_mem_nil _)
  | cons b bs ih =>
    obtain ⟨hb, hbs⟩ := List.forall_mem_cons.mp h
    exact readsQuietly_bind hb fun _ ht => readsQuietly_bind (ih hbs) fun _ hts =>
      readsQuietly_pure (List.forall_mem_cons.mpr ⟨ht, hts⟩)

/-- Fenced code can be written, with or without an information string. -/
theorem exists_sourceOfLone?_fenced {fields : Entries Value} {content marker : List Char}
    (hraw : fields.get? "raw" = some (ofChars content))
    (hmarker : fields.get? "marker" = some (ofChars marker))
    (hinfo : fields.get? "attrs" = none ∨
      ∃ i, fields.get? "attrs" = some (.record [("info", ofChars i)])) :
    ∃ text, sourceOfLone? (.mk fields none) "block_code" = some (.ok text) := by
  have hneed : Token.need (.mk fields none) "raw" = .ok (ofChars content) := by
    rw [Token.need, Token.get?, Token.fields, hraw]
  simp only [sourceOfLone?, hneed, Token.get?, Token.fields, hmarker, Option.getD_some,
    Except.ok_bind, plainOf_ofChars]
  -- An empty marker counts as none, and the fence is made up then.
  by_cases hm : (ofChars marker).isTruthy = true
  · obtain hnone | ⟨i, hsome⟩ := hinfo
    · rw [hnone]
      exact ⟨_, congrArg some (if_pos hm)⟩
    · rw [hsome]
      exact ⟨_, congrArg some (if_pos hm)⟩
  · obtain hnone | ⟨i, hsome⟩ := hinfo
    · rw [hnone]
      exact ⟨_, congrArg some (if_neg hm)⟩
    · rw [hsome]
      exact ⟨_, congrArg some (if_neg hm)⟩

/-- The token of a block of code can be written. -/
theorem writes_codeToken (style : CodeStyle) (content : List Char) :
    Writes (codeToken style content) := by
  cases style with
  | indented => exact writes_lone rfl rfl
  | fenced marker info =>
    have hwrites : ∀ {fields : Entries Value}, fields.get? "type" = some (.text "block_code") →
        (∃ text, sourceOfLone? (.mk fields none) "block_code" = some (.ok text)) →
        Writes (.mk fields none) := fun htype ⟨_, htext⟩ => writes_lone htype htext
    cases info with
    | none => exact hwrites rfl (exists_sourceOfLone?_fenced rfl rfl (.inl rfl))
    | some i => exact hwrites rfl (exists_sourceOfLone?_fenced rfl rfl (.inr ⟨i, rfl⟩))

/-- The token of an item whose children can be written. -/
def IsItemToken (t : Token) : Prop :=
  ∃ ts, t = parentToken "list_item" ts [] ∧ ∀ u ∈ ts, Writes u

/-- The items of a list can be written. -/
theorem exists_writeSourceList_items {items : List Token} (h : ∀ t ∈ items, IsItemToken t)
    (tight : Bool) : ∃ parts, writeSourceList (.list tight) false items = .ok parts := by
  induction items with
  | nil => exact ⟨[], rfl⟩
  | cons t items ih =>
    obtain ⟨⟨ts, rfl, hts⟩, hitems⟩ := List.forall_mem_cons.mp h
    obtain ⟨parts, hparts⟩ := ih hitems
    -- an item is written by its own parts, at a place that is an item's
    obtain ⟨own, hown⟩ := exists_writeSourceList hts
      (show (Place.item tight).isItem = false from rfl) true
    have htext : writeSourceToken (.list tight) (parentToken "list_item" ts []) =
        .ok own.flatten := by
      rw [parentToken, writeSourceToken]
      show (writeSourceList (.item tight) true ts >>= fun parts => pure ([] ++ parts.flatten)) = _
      rw [hown]
      rfl
    refine ⟨own.flatten :: parts, ?_⟩
    rw [writeSourceList, hparts, Bool.false_and, if_neg Bool.false_ne_true, htext]
    rfl

/-- The fields of the token of a list. -/
def listFields (tight : Bool) (bullet : Char) (depth : Nat) (ordered : Bool) (start : Option Nat) :
    Entries Value :=
  [("type", .text "list"), ("tight", .bool tight), ("bullet", .text (String.singleton bullet)),
    ("attrs", .record ([("depth", .int depth), ("ordered", .bool ordered)] ++ match start with
      | some n => [("start", .int n)]
      | none => []))]

/-- The items of a list have marks: its bullet, or the numbers from its start. -/
theorem exists_itemLeads (tight : Bool) (bullet : Char) (depth : Nat) (ordered : Bool)
    (start : Option Nat) (items : List Token) : ∃ leads,
    itemLeads (.mk (listFields tight bullet depth ordered start) (some items)) items.length =
      .ok leads := by
  cases ordered with
  | false => cases items <;> exact ⟨_, rfl⟩
  | true => cases items <;> cases start <;> exact ⟨_, rfl⟩

/-- The token of a list can be written when its items can. -/
theorem writes_list (tight : Bool) (bullet : Char) (depth : Nat) (ordered : Bool)
    (start : Option Nat) {items : List Token} (h : ∀ t ∈ items, IsItemToken t) :
    Writes (.mk (listFields tight bullet depth ordered start) (some items)) := by
  intro place hplace
  obtain ⟨leads, hleads⟩ := exists_itemLeads tight bullet depth ordered start items
  obtain ⟨parts, hparts⟩ := exists_writeSourceList_items h tight
  have hown : ∃ text, sourceOfHolder (.mk (listFields tight bullet depth ordered start)
      (some items)) "list" place.nested leads parts = .ok text := by
    obtain _ | tight | tight := place
    · exact ⟨_, rfl⟩
    · cases tight <;> exact ⟨_, rfl⟩
    · cases hplace
  obtain ⟨text, htext⟩ := hown
  refine ⟨text, ?_⟩
  rw [writeSourceToken_list rfl hplace, hleads, Except.ok_bind]
  show (writeSourceList (.list tight) false items >>= _) = _
  rw [hparts, Except.ok_bind, htext]

/-- The token of a basic block can be written. -/
theorem readsQuietly_block {defs : Definitions} (hdefs : defs.abbreviations = []) {b : Block}
    (h : b.Basic) : ReadsQuietly Writes (b.toToken ⟨[], defs⟩) := by
  induction h with
  | blankLine count =>
    cases count with
    | none => exact readsQuietly_pure (writes_lone rfl rfl)
    | some n => exact readsQuietly_pure (writes_lone rfl rfl)
  | paragraph text =>
    exact readsQuietly_bind (readsQuietly_readText hdefs text) fun _ hts => readsQuietly_pure
      (writes_holder rfl rfl rfl (by decide) (by decide) hts fun _ _ => ⟨_, rfl⟩)
  | blockText text =>
    exact readsQuietly_bind (readsQuietly_readText hdefs text) fun _ hts => readsQuietly_pure
      (writes_holder rfl rfl rfl (by decide) (by decide) hts fun _ _ => ⟨_, rfl⟩)
  | heading level underlined text =>
    exact readsQuietly_bind (readsQuietly_readText hdefs text) fun _ hts => readsQuietly_pure
      (writes_holder rfl rfl rfl (by decide) (by decide) hts fun _ _ =>
        ⟨_, (apply_ite Except.ok _ _ _).symm⟩)
  | thematicBreak => exact readsQuietly_pure (writes_lone rfl rfl)
  | code style content => exact readsQuietly_pure (writes_codeToken style content)
  | quote _ ih =>
    exact readsQuietly_bind (readsQuietly_blockTokens ih) fun _ hts => readsQuietly_pure
      (writes_holder rfl rfl rfl (by decide) (by decide) hts fun _ _ => ⟨_, rfl⟩)
  | html content => exact readsQuietly_pure (writes_lone rfl rfl)
  -- the children of a list are read as items, which are written only inside of a list
  | list tight bullet depth ordered start _ ih =>
    refine readsQuietly_bind (readsQuietly_blockTokens (P := IsItemToken) fun b hb => ?_)
      fun _ hts => readsQuietly_pure (writes_list tight bullet depth ordered start hts)
    obtain ⟨item, hitem, rfl⟩ := List.mem_map.mp hb
    exact readsQuietly_bind (readsQuietly_blockTokens (ih item hitem)) fun ts hts =>
      readsQuietly_pure ⟨ts, rfl, hts⟩

/-! ## Documents -/

/-- What a document without extensions defines. -/
def definitionsOf (source : List Char) : Definitions := (readBlocks [] 0 {} (sourceLines source)).2

/-- Each token of a document without extensions can be written. -/
theorem readDocument_writes (source : List Char) : ∀ t ∈ readDocument [] source, Writes t := by
  obtain ⟨hblocks, hdefs⟩ := readBlocks_basic 0 (show Definitions.abbreviations {} = [] from rfl)
    (sourceLines source)
  obtain ⟨htokens, hkeys⟩ :=
    readsQuietly_blockTokens (fun b hb => readsQuietly_block hdefs (hblocks b hb)) []
  have hdocument : readDocument [] source = ((blockTokens ⟨[], definitionsOf source⟩
      (readBlocks [] 0 {} (sourceLines source)).1).run []).1 := by
    show (if ((blockTokens ⟨[], definitionsOf source⟩
      (readBlocks [] 0 {} (sourceLines source)).1).run []).2.isEmpty then _ else _) = _
    rw [definitionsOf, hkeys]
    rfl
  rw [hdocument]
  exact htokens

/-! ## Blanks at the end -/

/-- Blanks leave nothing that is not blank. -/
theorem filter_blanks {cs : List Char} (h : ∀ c ∈ cs, isBlank c = true) :
    cs.filter (fun c => !isBlank c) = [] :=
  List.filter_eq_nil_iff.mpr fun c hc => by simp [h c hc]

/-- Trimming the end changes blanks only. -/
theorem filter_trimEnd (cs : List Char) :
    (trimEnd cs).filter (fun c => !isBlank c) = cs.filter (fun c => !isBlank c) := by
  unfold trimEnd
  dsimp only
  generalize hblanks : (cs.reverse.takeWhile isBlank).reverse = blanks
  have hblank : ∀ c ∈ blanks, isBlank c = true := by
    intro c hc
    rw [← hblanks] at hc
    exact List.all_eq_true.mp List.all_takeWhile c (List.mem_reverse.mp hc)
  -- the blanks at the end are dropped, up to the last end of a line
  obtain ⟨kept, rfl⟩ : ∃ kept, kept ++ blanks = cs :=
    ⟨(cs.reverse.dropWhile isBlank).reverse, by
      rw [← hblanks, ← List.reverse_append, List.takeWhile_append_dropWhile,
        List.reverse_reverse]⟩
  have hlast : ∀ c ∈ blanks.takeWhile (· != '\n') ++ ['\n'], isBlank c = true := by
    intro c hc
    obtain hc | hc := List.mem_append.mp hc
    · exact hblank c ((List.takeWhile_prefix _).subset hc)
    · exact List.mem_singleton.mp hc ▸ rfl
  split
  · rfl
  · rw [List.length_append, Nat.add_sub_cancel, List.take_left, List.append_assoc,
      List.filter_append, filter_blanks hlast, List.filter_append, filter_blanks hblank]

/-- A text with something behind it that is not blank does not end as without it. -/
theorem trimEnd_ne {body more : List Char} {c : Char} (hc : c ∈ more) (hblank : isBlank c = false) :
    trimEnd (body ++ ['\n']) ≠ trimEnd (body ++ more ++ ['\n']) := by
  intro h
  have hmore : c ∈ more.filter (fun c => !isBlank c) :=
    List.mem_filter.mpr ⟨hc, by simp [hblank]⟩
  have hlength := congrArg (fun cs => (List.filter (fun c => !isBlank c) cs).length) h
  simp only [filter_trimEnd, List.filter_append, List.length_append] at hlength
  have hpos := List.length_pos_of_mem hmore
  omega

/-! ## Definitions -/

/-- The targets that a document defines, as they are written. -/
def targetsText (defs : Definitions) : List Char :=
  Text.join ['\n', '\n'] (defs.links.map (fun e => writeLinkTarget e.2))

/-- The text of some definitions has a bracket in it. -/
theorem bracket_mem_targetsText {defs : Definitions} (h : defs.links ≠ []) :
    '[' ∈ targetsText defs := by
  unfold targetsText Text.join
  cases hlinks : defs.links with
  | nil => exact absurd hlinks h
  | cons e es =>
    cases es with
    | nil => exact List.mem_append_left _ List.mem_cons_self
    | cons e' es => exact List.mem_append_left _ List.mem_cons_self

/-- A document that is read and written back. The text that is written for the tree and the one that
is written for the tokens with all that the document defines both come to be, and the second is the
first with the definitions of link targets behind it: the tree loses these. So they are the same
exactly if the document defines no link targets. -/
theorem toSource_parse {settings : Value} (hnone : extensionsFor settings = .ok []) (s : String) :
    ∃ tree told text kept, (parse (.text s) settings).outcome = (.ok tree, told) ∧
      toSource tree = .ok (String.ofList text) ∧
      writeSource (definitionsOf s.toList) (readDocument [] s.toList) = .ok kept ∧
      (∃ body, text = trimEnd (body ++ ['\n']) ∧
        kept = trimEnd (body ++ targetsText (definitionsOf s.toList) ++ ['\n'])) ∧
      (text = kept ↔ (definitionsOf s.toList).links = []) := by
  obtain ⟨parts, hparts⟩ := exists_writeSourceList (readDocument_writes s.toList)
    (show Place.open.isItem = false from rfl) false
  obtain ⟨ts, hts, hsame⟩ := exists_same_of_allRegular (readDocument_regular [] s.toList)
  have helements : elementsFor settings (.text s) = .ok (elementsOf (readDocument [] s.toList)) := by
    rw [elementsFor, hnone]
    rfl
  have hwritten : writeSourceList .open false ts = .ok parts :=
    (writeSourceList_same .open false hsame).trans hparts
  refine ⟨_, _, trimEnd (parts.flatten ++ ['\n']),
    trimEnd (parts.flatten ++ targetsText (definitionsOf s.toList) ++ ['\n']),
    parse_of_elementsFor helements, ?_, ?_, ⟨parts.flatten, rfl, rfl⟩, ?_⟩
  · rw [toSource, elementRoot, tokensOfTree_of_children rfl, hts, Except.ok_bind, writeSource,
      hwritten, Except.ok_bind]
    -- no definitions are at hand when the tree is written, so their text is empty
    show Except.ok (String.ofList (trimEnd (parts.flatten ++ [] ++ ['\n']))) = _
    rw [List.append_nil]
  · rw [writeSource, hparts, Except.ok_bind]
    rfl
  · constructor
    · intro h
      cases hlinks : (definitionsOf s.toList).links with
      | nil => rfl
      | cons e es =>
        -- with a definition the other text has a bracket that this one lacks
        refine absurd h (trimEnd_ne (bracket_mem_targetsText ?_) (by decide))
        rw [hlinks]
        exact List.cons_ne_nil e es
    · intro hlinks
      have htargets : targetsText (definitionsOf s.toList) = [] := by
        rw [targetsText, hlinks]
        rfl
      rw [htargets, List.append_nil]

/-- A document with and without a definition. -/
theorem toSource_parse_sample :
    (∃ tree told, (parse (.text "# a\n\n*b*") .null).outcome = (.ok tree, told) ∧
      (toSource tree).map String.toList =
        writeSource (definitionsOf "# a\n\n*b*".toList) (readDocument [] "# a\n\n*b*".toList)) ∧
    ∃ tree told, (parse (.text "[a][b]\n\n[b]: /u\n") .null).outcome = (.ok tree, told) ∧
      (toSource tree).map String.toList ≠ writeSource (definitionsOf "[a][b]\n\n[b]: /u\n".toList)
        (readDocument [] "[a][b]\n\n[b]: /u\n".toList) := by
  have hnone : extensionsFor .null = .ok [] := rfl
  constructor
  · obtain ⟨tree, told, text, kept, hparse, htext, hkept, -, hsame⟩ :=
      toSource_parse hnone "# a\n\n*b*"
    have hlinks : (definitionsOf "# a\n\n*b*".toList).links = [] := by decide +kernel
    refine ⟨tree, told, hparse, ?_⟩
    rw [htext, hkept, hsame.mpr hlinks]
    simp [Except.map]
  · obtain ⟨tree, told, text, kept, hparse, htext, hkept, -, hsame⟩ :=
      toSource_parse hnone "[a][b]\n\n[b]: /u\n"
    -- the definition is found, so the two texts differ
    have hlinks : (definitionsOf "[a][b]\n\n[b]: /u\n".toList).links.length = 1 := by
      decide +kernel
    refine ⟨tree, told, hparse, fun h => ?_⟩
    rw [htext, hkept] at h
    have heq : text = kept := by simpa [Except.map] using h
    rw [hsame.mp heq] at hlinks
    cases hlinks

/-- A link keeps its label and loses the target that the label stands for. -/
theorem toSource_loses_definitions :
    (∃ tree told, (parse (.text "[a][b]\n\n[b]: /u\n") .null).outcome = (.ok tree, told) ∧
      (toSource tree).toOption = some "[a][b]\n") ∧
    (writeSource (definitionsOf "[a][b]\n\n[b]: /u\n".toList)
      (readDocument [] "[a][b]\n\n[b]: /u\n".toList)).toOption =
        some "[a][b]\n\n[b]: /u\n".toList := by
  refine ⟨⟨_, _, rfl, ?_⟩, ?_⟩
  · decide +kernel
  · decide +kernel

end NotebookTree.Markdown
